import LocalTopology.Document.Fragment
import LocalTopology.Shell.Quoting

/-!
# The manifest of processes

One entry for each service that runs as a process on the workstation, with its command line, its
directory and its environment. The supervisor is told to write plain lines at once, so that they can
be passed on.
-/

namespace LocalTopology

/-- How the supervisor writes its output. -/
structure LogSettings where
  noColor : Bool := true
  flushEachLine : Bool := true
  disableJson : Bool := false
  deriving DecidableEq, Inhabited

/-- A process under the supervisor. -/
structure SupervisedProcess where
  /-- The command line. -/
  command : String
  workingDirectory : Option String := none
  /-- Variables, each with an equals sign and its value. -/
  environment : List String := []
  /-- When the process is started again. -/
  restart : String := "on_failure"
  deriving DecidableEq, Inhabited

namespace SupervisedProcess

/-- The process of a program and its arguments. -/
def ofArguments (program : String) (arguments : List String) : SupervisedProcess :=
  { command := Shell.commandLine (program :: arguments) }

/-- Sets the variables of an environment. -/
def withEnvironment (p : SupervisedProcess) (env : Environment) : SupervisedProcess :=
  { p with environment := env.entries.map fun (name, value) => s!"{name}={value}" }

end SupervisedProcess

/-- The processes on the workstation. -/
structure SupervisorManifest where
  version : String := "0.5"
  isStrict : Bool := true
  logLevel : String := "info"
  logSettings : LogSettings := {}
  processes : Registry SupervisedProcess := ∅
  deriving DecidableEq, Inhabited

namespace SupervisorManifest

/-- The manifest without entries. -/
def empty : SupervisorManifest := {}

/-- Adds an entry, or puts it in the place of the one of its name. -/
def addProcess (m : SupervisorManifest) (name : String) (p : SupervisedProcess) :
    SupervisorManifest :=
  { m with processes := m.processes.put name p }

/-- Whether there is no process. -/
def isEmpty (m : SupervisorManifest) : Bool :=
  m.processes.isEmpty

end SupervisorManifest

namespace Document

open Yaml

/-- A truth value as a node. -/
def boolNode (b : Bool) : Node := .ofPlain (boolText b)

/-- The output settings as a node. -/
def logSettingsNode (s : LogSettings) : Node :=
  .ofEntries
    [("no_color", boolNode s.noColor), ("flush_each_line", boolNode s.flushEachLine),
      ("disable_json", boolNode s.disableJson)]

/-- A process as a node. -/
def processNode (p : SupervisedProcess) : Node :=
  .ofEntries <|
    [("command", .ofText p.command)] ++ optional "working_dir" .ofText p.workingDirectory ++
      textsField "environment" p.environment ++
      [("availability", .ofEntries [("restart", .ofText p.restart)])]

/-- The manifest of processes as a node. -/
def supervisorNode (m : SupervisorManifest) : Node :=
  .ofEntries
    [("version", .ofText m.version), ("is_strict", boolNode m.isStrict),
      ("log_level", .ofText m.logLevel), ("log_configuration", logSettingsNode m.logSettings),
      ("processes", .ofEntries (m.processes.mapValues processNode).entries)]

/-- The output settings. -/
def readLogSettings : Reader LogSettings :=
  readRecord "struct LogConfiguration" ["no_color", "flush_each_line", "disable_json"]
    ["no_color", "flush_each_line", "disable_json"] {} fun s name p n =>
      match name with
      | "no_color" => do return { s with noColor := ← readBool p n }
      | "flush_each_line" => do return { s with flushEachLine := ← readBool p n }
      | _ => do return { s with disableJson := ← readBool p n }

/-- When a process is started again. -/
def readAvailability : Reader String :=
  readRecord "struct Availability" ["restart"] ["restart"] "" fun _ _ p n => readString p n

/-- A process. -/
def readProcess : Reader SupervisedProcess :=
  readRecord "struct SupervisedProcess" ["command", "working_dir", "environment", "availability"]
    ["command", "availability"] { command := "" } fun s name p n =>
      match name with
      | "command" => do return { s with command := ← readString p n }
      | "working_dir" => do return { s with workingDirectory := ← readOption readString p n }
      | "environment" => do return { s with environment := ← readList readString p n }
      | _ => do return { s with restart := ← readAvailability p n }

/-- The manifest of processes. -/
def readSupervisor : Reader SupervisorManifest :=
  readRecord "struct SupervisorManifest"
    ["version", "is_strict", "log_level", "log_configuration", "processes"]
    ["version", "is_strict", "log_level", "log_configuration"] {} fun m name p n =>
      match name with
      | "version" => do return { m with version := ← readString p n }
      | "is_strict" => do return { m with isStrict := ← readBool p n }
      | "log_level" => do return { m with logLevel := ← readString p n }
      | "log_configuration" => do return { m with logSettings := ← readLogSettings p n }
      | _ => do return { m with processes := .ofList (← readMapping readProcess p n) }

end Document

end LocalTopology
