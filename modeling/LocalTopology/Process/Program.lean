import LocalTopology.Process.Pump
import LocalTopology.System.FileTree

/-!
# Programs

What the operating system makes of a program: it is not started, or it writes to its streams, leaves
files, and ends with a code, by a signal, or never. A program that pauses can be stopped there.
-/

namespace LocalTopology

/-- How a program ends. -/
inductive ProgramEnd
  | code (value : Nat)
  | signal
  /-- It goes on for ever. -/
  | never
  deriving DecidableEq, Inhabited

/-- When a program is asked to terminate. -/
inductive Stop
  | never
  | atOnce
  /-- As soon as it pauses. -/
  | atPause
  /-- Once it has written a certain line. -/
  | onLine (line : String)
  deriving DecidableEq, Inhabited

/-- Whether a program that pauses after it has written certain lines is asked to terminate. -/
def Stop.holds (lines : List OutputLine) : Stop → Bool
  | never => false
  | atOnce => true
  | atPause => true
  | onLine line => lines.any (·.text == line)

/-- What came of a program. -/
structure ProgramOutcome where
  writings : List Writing
  ending : ProgramEnd
  /-- Whether it was asked to terminate. -/
  wasAsked : Bool
  files : FileTree
  deriving Inhabited

/-- What comes of starting a program: from the files, the directory in which it starts, its name or
path, its arguments, and when it is asked to terminate. -/
abbrev Execute :=
  FileTree → String → String → List String → Stop → Except SystemFault ProgramOutcome

end LocalTopology
