import LocalTopology.Shell.Interpreter

/-!
# Programs that are scripts

Here a program is the shell, a command of the system, or a file of the tree that holds a script. Any
other is a fault, as it is for an operating system that cannot start it.
-/

namespace LocalTopology.Shell

/-- A script that is started under a name, with arguments. -/
structure Invocation where
  script : String
  name : String
  arguments : List String
  deriving DecidableEq, Inhabited

/-- Where the shell is. -/
def shellPath : String := "/bin/sh"

/-- Commands of the system that are programs of their own. -/
def systemCommands : List String :=
  ["true", "false", "echo", "printf", "cat", "seq", "sleep", "pwd", "touch", "mkdir", "rm", "test",
    "kill"]

/-- The command of the system that a program is. -/
def systemCommand? (program : String) : Option String :=
  systemCommands.find? fun c => [c, "/bin/" ++ c, "/usr/bin/" ++ c].contains program

namespace Invocation

/-- The script in a file, which has to be there and to be executable. -/
def ofFile (t : FileTree) (path : String) (arguments : List String) :
    Except SystemFault Invocation := do
  match t.get? (← t.locate path) with
  | none => .error .notFound
  | some .directory => .error .denied
  | some (.file content isExecutable) =>
    match isExecutable, String.fromUTF8? content with
    | true, some script => return ⟨script, path, arguments⟩
    | true, none => .error .notExecutable
    | false, _ => .error .denied

/-- What the shell runs when it is given arguments. -/
def ofShell (t : FileTree) (directory : String) : List String → Invocation
  | [] => ⟨"", shellPath, []⟩
  | ["-c"] => ⟨"echo \"$0: 0: -c requires an argument\" >&2; exit 2", shellPath, []⟩
  | ["-c", script] => ⟨script, shellPath, []⟩
  | "-c" :: script :: name :: arguments => ⟨script, name, arguments⟩
  | file :: arguments =>
    match (t.read (Path.join directory file)).toOption.bind (String.fromUTF8? ·) with
    | some script => ⟨script, file, arguments⟩
    | none => ⟨"echo \"$0: 0: cannot open $1: No such file\" >&2; exit 2", shellPath, [file]⟩

/-- What is started as a program in a directory; a bare name is that of a command of the system. -/
def ofProgram (t : FileTree) (directory program : String) (arguments : List String) :
    Except SystemFault Invocation :=
  if program = shellPath || program = "sh" then .ok (ofShell t directory arguments)
  else
    match systemCommand? program with
    | some command => .ok ⟨command ++ " \"$@\"", program, arguments⟩
    | none =>
      if program.toList.contains '/' then ofFile t (Path.join directory program) arguments
      else .error .notFound

end Invocation

/-- Runs a program in a directory (an `Execute`). -/
def execute (t : FileTree) (directory program : String) (arguments : List String) (stop : Stop) :
    Except SystemFault ProgramOutcome := do
  match t.get? (← t.locate directory) with
  | none => .error .notFound
  | some (.file ..) => .error .notDirectory
  | some .directory =>
    let i ← Invocation.ofProgram t directory program arguments
    return run i.script
      { files := t, directory := directory, stop := stop, name := i.name, arguments := i.arguments }

end LocalTopology.Shell
