import LocalTopology.Manifest.Store
import LocalTopology.Process.Run

/-!
# The tools of a session

The compose driver and the supervisor run side by side, each on its manifest. When the session is
cancelled both are stopped, and the compose driver is called once more to take its project down; how
that goes does not count.
-/

namespace LocalTopology

/-- A tool that is started on its manifest. -/
structure ToolTask where
  tool : Tool
  manifest : WrittenManifest
  deriving DecidableEq, Inhabited

/-- What a tool of a session did. -/
structure TaskOutcome where
  /-- The runs of the tool, with the name under which their output is told. -/
  runs : List (String × ToolRun)
  result : Except Error Unit
  files : FileTree

namespace ToolTask

/-- The arguments with which a tool is started. -/
def arguments (task : ToolTask) (path : String) : List String :=
  match task.tool with
  | .compose => ["-p", ComposeManifest.project, "-f", path, "up", "--remove-orphans"]
  | .supervisor => ["up", "--config", path, "--tui=false", "--no-server"]
  | .mockServer => []

/-- The arguments with which what a tool started is taken down, where that takes a call. -/
def downArguments? (task : ToolTask) (path : String) : Option (List String) :=
  match task.tool with
  | .compose => some ["-p", ComposeManifest.project, "-f", path, "down"]
  | _ => none

/-- A call of the tool. -/
def call (task : ToolTask) (h : Home) (arguments : List String) : ToolProcess where
  tool := task.tool.name
  program := task.tool.binaryPath h
  arguments := arguments

variable (execute : Execute) (h : Home) (current : String)

/-- Runs the tool until it ends or is stopped. -/
def run (task : ToolTask) (stop : Stop) (isCancelled : Bool) (t : FileTree) : TaskOutcome :=
  let name := task.tool.name
  match task.manifest.check t with
  | .error e => ⟨[], .error e, t⟩
  | .ok path =>
    let up := (task.call h (task.arguments path)).run execute current stop t
    match (task.downArguments? path).filter fun _ => isCancelled with
    | none => ⟨[(name, up)], up.result, up.files⟩
    | some arguments =>
      let down := (task.call h arguments).run execute current .never up.files
      ⟨[(name, up), (name, down)], up.result, down.files⟩

/-- Whether a tool writes a line. -/
def writes (task : ToolTask) (line : String) (t : FileTree) : Bool :=
  (task.run execute h current (.onLine line) false t).runs.any fun (_, r) =>
    r.lines.any (·.text == line)

/-- When a tool is stopped if one of several tools may cancel the session: a tool that does not do
so itself is stopped where it pauses. -/
def stopFor (task : ToolTask) (stop : Stop) (isCancelled : Bool) (t : FileTree) : Stop :=
  match stop with
  | .onLine line => if isCancelled && !task.writes execute h current line t then .atPause else stop
  | _ => stop

/-- Whether tools that are stopped in a certain way cancel their session. -/
def cancel (tasks : List ToolTask) (stop : Stop) (t : FileTree) : Bool :=
  match stop with
  | .never => false
  | .atOnce => true
  | .atPause => true
  | .onLine line => tasks.any fun task => task.writes execute h current line t

/-- Runs tools side by side, where they have nothing to do with each other's files. -/
def runAll (stop : Stop) (isCancelled : Bool) :
    List ToolTask → FileTree → List TaskOutcome × FileTree
  | [], t => ([], t)
  | task :: tasks, t =>
    let stopped := task.stopFor execute h current stop isCancelled t
    let outcome := task.run execute h current stopped isCancelled t
    let (outcomes, t) := runAll stop isCancelled tasks outcome.files
    (outcome :: outcomes, t)

end ToolTask

/-- The first failure that a tool reported. -/
def firstFailure (outcomes : List TaskOutcome) : Except Error Unit :=
  outcomes.forM (·.result)

end LocalTopology
