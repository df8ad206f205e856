import LocalTopology.Command.Report
import LocalTopology.Shell.Program

/-!
# The program

Reads the configuration files that a command line asks for, does what is asked on them, prints the
report and puts the manifests that were written in their places. Nothing is fetched from the
network, so a run goes on only if it needs no tool.
-/

namespace LocalTopology.Command

/-- How the program is called. -/
def usageText : String :=
  "Usage: devstack run [-f FILE]... [--remote-env ENV] [--timeout TIME] [--proxy-port PORT]\n" ++
    "                    [--probe-all] [--dry-run]\n" ++
    "       devstack validate [-f FILE]..."

/-- The files that a command reads if they are there. -/
def Request.candidates (current : String) (r : Request) : List String :=
  let files := match r with
    | .run options => options.files
    | .validate files => files
  if files.isEmpty then
    (Path.ancestors current).flatMap fun directory =>
      [configFileName, configFileAlias].map (Path.join directory)
  else files.map (Path.join current)

/-- The files of the system that can be read. -/
def readFiles (paths : List String) : IO FileTree := do
  let mut t : FileTree := {}
  for path in paths do
    match ← (IO.FS.readBinFile path).toBaseIO with
    | .ok content =>
      let withParent := (t.makeDirectories ((Path.parent? path).getD "/")).toOption.getD t
      t := (withParent.write path content).toOption.getD t
    | .error _ => pure ()
  return t

/-- Puts files of a tree in their places. -/
def writeFiles (t : FileTree) (paths : List String) : IO Unit := do
  for path in paths do
    match t.read path with
    | .ok content =>
      IO.FS.createDirAll ((Path.parent? path).getD "/")
      IO.FS.writeBinFile path content
    | .error _ => pure ()

/-- Prints a line of a report. -/
def ReportLine.print : ReportLine → IO Unit
  | status text => IO.println text
  | success text => IO.println text
  | warning text => IO.eprintln text
  | error text => IO.eprintln text
  | blank => IO.println ""

/-- What the program finds around it. -/
def surroundings (files : FileTree) (current : String) : Surroundings where
  files := files
  offers := (List.range 16384).map fun n => UInt16.ofNat (49152 + n)
  directory := current
  platform := Platform.ofNames "linux" "x86_64"
  download := fun _ => .unreachable
  execute := Shell.execute
  bind := fun p => .ok (if p = 0 then 49151 else p)
  polling := fun _ => []
  stop := .never

/-- Does what is asked and tells whether that succeeded. -/
def execute (r : Request) : IO UInt32 := do
  let current := toString (← IO.currentDir)
  let setting := (← IO.getEnv "DEVSTACK_HOME").getD ""
  let home := Home.ofSetting setting ((← IO.getEnv "HOME").getD "/")
  let report := r.perform (surroundings (← readFiles (r.candidates current)) current) home
  writeFiles report.files [home.composeManifest, home.supervisorManifest]
  report.lines.forM (·.print)
  match report.failure with
  | none => return 0
  | some e =>
    IO.eprintln s!"Error: {e.messageWithHint}"
    return 1

end LocalTopology.Command

open LocalTopology.Command in
/-- Reads the command line. -/
def main (args : List String) : IO UInt32 := do
  match Request.ofArguments args with
  | .ok request => execute request
  | .error .helpAsked =>
    IO.println usageText
    return 0
  | .error _ =>
    IO.eprintln usageText
    return 2
