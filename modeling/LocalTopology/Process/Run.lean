import LocalTopology.Error
import LocalTopology.Process.Program
import LocalTopology.Process.Replay

/-!
# Running a tool

A tool is run until it ends or is stopped. Being stopped is no failure. When the tool fails, the
newest lines of its output are shown again.
-/

namespace LocalTopology

/-- A tool that is to be run. -/
structure ToolProcess where
  tool : String
  program : String
  arguments : List String := []
  /-- The directory in which the program starts, if not in the one that is current. -/
  directory : Option String := none
  /-- How many lines are kept for a failure. -/
  capacity : Nat := ReplayBuffer.standardCapacity
  deriving DecidableEq, Inhabited

/-- How the run of a tool ends. -/
inductive RunEnd
  | stopped
  | exited (code : Nat)
  | killed
  deriving DecidableEq, Inhabited

/-- Whether the end of a run is a failure. -/
def RunEnd.isFailure : RunEnd → Bool
  | stopped => false
  | exited code => code != 0
  | killed => true

/-- The code with which a run ended, if it ended with one. -/
def RunEnd.code? : RunEnd → Option Nat
  | exited code => some code
  | _ => none

/-- What is seen of the run of a tool. -/
structure ToolRun where
  lines : List OutputLine := []
  /-- The lines that are shown again. -/
  replay : Option (List String) := none
  result : Except Error Unit := .ok ()
  files : FileTree

namespace ToolProcess

/-- What is seen of a tool that wrote certain lines and ended in a certain way. -/
def conclude (p : ToolProcess) (lines : List OutputLine) (ending : RunEnd) (files : FileTree) :
    ToolRun :=
  if ending.isFailure then
    { lines := lines
      replay := some ((ReplayBuffer.ofCapacity p.capacity).pushAll (lines.map (·.text))).lines
      result := .error (.exit p.tool (ending.code?.map Int.ofNat))
      files := files }
  else { lines := lines, files := files }

/-- How a run ended whose program ended in a certain way. -/
def endOf (isStopped : Bool) : ProgramEnd → RunEnd
  | .code value => if isStopped then .stopped else .exited value
  | .signal => if isStopped then .stopped else .killed
  | .never => .stopped

/-- Whether a tool was stopped: it was asked to terminate, or wrote the line on which it is to be.
-/
def wasStopped (stop : Stop) (lines : List OutputLine) (wasAsked : Bool) : Bool :=
  wasAsked ||
    match stop with
    | .onLine line => lines.any (·.text == line)
    | _ => false

/-- Runs the tool. One that is stopped at once has written nothing. -/
def run (p : ToolProcess) (execute : Execute) (current : String) (stop : Stop)
    (files : FileTree) : ToolRun :=
  let directory := p.directory.getD current
  match execute files directory p.program p.arguments stop with
  | .error fault => { result := .error (.system fault), files := files }
  | .ok outcome =>
    if stop = .atOnce then { files := files }
    else
      let lines := outputLines outcome.writings
      p.conclude lines (endOf (wasStopped stop lines outcome.wasAsked) outcome.ending) outcome.files

end ToolProcess

end LocalTopology
