import LocalTopology.Readiness.Gate
import LocalTopology.Session.Tasks
import LocalTopology.Tools.Install

/-!
# Sessions

A topology is started in order: it is compiled and its manifests are written, missing tools are
installed, the proxy is bound if there is a route, the tools are started, and all checks have to
pass. An error on the way stops what has been started. A session that has started goes on until it
is cancelled or all of it has ended.
-/

namespace LocalTopology

/-- What is to be started, and how it is known to be ready. -/
structure SessionPlan where
  graph : Graph
  context : Context
  checks : List HealthCheck := []
  policy : UncheckedPolicy := .assumeReady
  timeout : Duration := .ofSeconds 300

/-- What a session finds around it. -/
structure Surroundings where
  files : FileTree
  /-- The ports that the system will offer. -/
  offers : List Port
  /-- The current directory. -/
  directory : String
  platform : Except Error Platform
  /-- What comes of asking for a release. -/
  download : Release → Download
  /-- What comes of starting a program. -/
  execute : Execute
  /-- The port that the proxy gets when it asks for one; zero asks for any. -/
  bind : Port → Except SystemFault Port
  /-- What happens while targets are polled and nobody cancels. -/
  polling : List PollTarget → List GateEvent
  /-- When the session is cancelled. -/
  stop : Stop

/-- A session that has started. -/
structure Session where
  topology : Topology
  addresses : AddressBook
  /-- The port of the proxy, if it runs. -/
  proxy : Option Port
  tasks : List ToolTask

/-- What came of starting a session. -/
structure StartOutcome where
  result : Except Error Session
  files : FileTree

/-- What came of a session in the end. -/
structure SessionOutcome where
  runs : List (String × ToolRun)
  /-- There is no result while the session goes on. -/
  result : Option (Except Error Unit)
  files : FileTree

/-- The same addresses behind a proxy on another port. -/
def AddressBook.withProxyPort (b : AddressBook) (p : Port) : AddressBook :=
  { b with proxyPort := p }

namespace SessionPlan

/-- The context in which the topology is compiled: manifests are written. -/
def writing (p : SessionPlan) : Context :=
  { p.context with persists := true }

/-- All checks that have to pass. -/
def allChecks (p : SessionPlan) (b : AddressBook) : List HealthCheck :=
  let known := declaredChecks b ++ p.checks
  known ++ implicitChecks p.policy b known

/-- The gate before the session. -/
def gate (p : SessionPlan) (b : AddressBook) : ReadinessGate :=
  { checks := p.allChecks b, timeout := p.timeout }

end SessionPlan

namespace Topology

/-- The tools that are started, each with its manifest. -/
def tasks (t : Topology) : List ToolTask :=
  let written := t.written.getD {}
  (written.compose.map (⟨.compose, ·⟩)).toList ++ (written.supervisor.map (⟨.supervisor, ·⟩)).toList

/-- The tools that have to be installed. -/
def neededTools (t : Topology) : List Tool :=
  t.tasks.map (·.tool) ++ if t.requiresMockServer then [.mockServer] else []

/-- The port of the proxy, which runs if there is a route. -/
def bindProxy (t : Topology) (bind : Port → Except SystemFault Port) (wanted : Port) :
    Except Error (Option Port) :=
  if t.routes.isEmpty then .ok none
  else
    match bind wanted with
    | .ok p => .ok (some p)
    | .error fault => .error (.port (.proxyInUse s!"127.0.0.1:{wanted}" fault))

/-- The session of a topology behind a proxy or none. -/
def session (t : Topology) (proxy : Option Port) : Session where
  topology := t
  addresses := match proxy with
    | some p => t.addresses.withProxyPort p
    | none => t.addresses
  proxy := proxy
  tasks := t.tasks

end Topology

namespace Surroundings

/-- Installs the tools that are missing, one after the other. -/
def ensureAll (w : Surroundings) (h : Home) : List Tool → FileTree → Except Error Unit × FileTree
  | [], t => (.ok (), t)
  | tool :: tools, t =>
    match tool.ensure h w.platform w.download t with
    | (.ok _, t) => w.ensureAll h tools t
    | (.error e, t) => (.error e, t)

/-- Installs the tools that are missing, unless the session has been cancelled. -/
def acquire (w : Surroundings) (h : Home) (tools : List Tool) (t : FileTree) :
    Except Error Unit × FileTree :=
  if w.stop = .atOnce then (.error (.cancelled "acquiring tools"), t) else w.ensureAll h tools t

end Surroundings

namespace Session

/-- Whether the session is cancelled. -/
def isCancelled (s : Session) (h : Home) (w : Surroundings) (t : FileTree) : Bool :=
  ToolTask.cancel w.execute h w.directory s.tasks w.stop t

/-- Runs the tools of the session, stopping them in a certain way. -/
def runTasks (s : Session) (h : Home) (w : Surroundings) (stop : Stop) (t : FileTree) :
    List TaskOutcome × FileTree :=
  let isCancelled := ToolTask.cancel w.execute h w.directory s.tasks stop t
  ToolTask.runAll w.execute h w.directory stop isCancelled s.tasks t

/-- Waits until all checks have passed; in the end the deadline comes. -/
def awaitReady (s : Session) (p : SessionPlan) (w : Surroundings) (t : FileTree) :
    Option (Except Error Unit) :=
  let gate := p.gate s.addresses
  let targets := (gate.targets s.addresses).toOption.getD []
  let events := if s.isCancelled p.context.home w t then [.cancelled] else w.polling targets
  gate.wait s.addresses (events ++ [.deadline])

/-- Waits until the session is cancelled or all of it has ended. The proxy does not end by itself.
-/
def wait (s : Session) (h : Home) (w : Surroundings) (t : FileTree) : SessionOutcome :=
  let (outcomes, files) := s.runTasks h w w.stop t
  { runs := outcomes.flatMap (·.runs)
    result := if s.proxy.isSome && !s.isCancelled h w t then none else some (firstFailure outcomes)
    files := files }

/-- Stops the session as soon as it has started. -/
def shutdown (s : Session) (h : Home) (w : Surroundings) (t : FileTree) : SessionOutcome :=
  let (outcomes, files) := s.runTasks h w .atOnce t
  ⟨outcomes.flatMap (·.runs), some (firstFailure outcomes), files⟩

end Session

namespace SessionPlan

/-- Lets a session begin once its checks have passed; otherwise what has been started is stopped. -/
def confirm (p : SessionPlan) (w : Surroundings) (s : Session) (t : FileTree) : StartOutcome :=
  match s.awaitReady p w t with
  | some (.error e) => ⟨.error e, (s.runTasks p.context.home w .atPause t).2⟩
  | _ => ⟨.ok s, t⟩

/-- Starts a session. -/
def start (p : SessionPlan) (w : Surroundings) : StartOutcome :=
  match p.graph.compile p.writing w.offers w.files with
  | (.error e, t) => ⟨.error e, t⟩
  | (.ok topology, t) =>
    match w.acquire p.context.home topology.neededTools t with
    | (.error e, t) => ⟨.error e, t⟩
    | (.ok _, t) =>
      match topology.bindProxy w.bind p.context.proxyPort with
      | .error e => ⟨.error e, t⟩
      | .ok proxy => p.confirm w (topology.session proxy) t

end SessionPlan

end LocalTopology
