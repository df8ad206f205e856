import LocalTopology.Process.Pump
import LocalTopology.Process.Replay
import Mathlib.Logic.Function.Basic

/-!
# One buffer for both streams

Each stream of a tool has a pump of its own, and both pumps keep their lines in one buffer. A pump
passes a line on, waits until it has the buffer to itself, adds the line, lets go of the oldest one
if there are too many, and gives the buffer back. Whose turn it is next is up to a schedule.
-/

namespace LocalTopology

namespace ReplayBuffer

/-- Takes up a line, even if it is one too many. -/
def add (b : ReplayBuffer) (line : String) : ReplayBuffer :=
  { b with lines := b.lines ++ [line] }

/-- Lets go of the oldest line if there are too many. -/
def trim (b : ReplayBuffer) : ReplayBuffer :=
  { b with lines := if b.capacity < b.lines.length then b.lines.drop 1 else b.lines }

theorem trim_add (b : ReplayBuffer) (line : String) : (b.add line).trim = b.push line :=
  rfl

end ReplayBuffer

/-- How far a pump is with a line. -/
inductive PumpStage
  | reading
  /-- The line has been passed on and is not in the buffer yet. -/
  | carrying (line : String)
  /-- The line is in the buffer, which may hold one too many. -/
  | trimming
  deriving DecidableEq, Inhabited

/-- A pump, and the lines that are still to come from its stream. -/
structure StreamPump where
  stage : PumpStage := .reading
  coming : List String := []
  deriving DecidableEq, Inhabited

/-- The pumps of both streams and the buffer that they share. -/
structure SharedReplay where
  pumps : OutputStream → StreamPump
  buffer : ReplayBuffer
  /-- The stream whose pump has the buffer to itself. -/
  owner : Option OutputStream := none
  /-- The lines that were passed on, in order. -/
  passed : List OutputLine := []
  /-- The lines that were added to the buffer, in order. -/
  added : List OutputLine := []

namespace SharedReplay

/-- Nothing is taken up yet of the lines that are to come from each stream. -/
def start (capacity : Nat) (received : OutputStream → List String) : SharedReplay where
  pumps s := { coming := received s }
  buffer := .ofCapacity capacity

/-- The pump of a stream passes on the next line. -/
def read (r : SharedReplay) (s : OutputStream) (line : String) (coming : List String) :
    SharedReplay :=
  { r with
    pumps := Function.update r.pumps s ⟨.carrying line, coming⟩
    passed := r.passed ++ [⟨s, line⟩] }

/-- The pump of a stream adds the line that it passed on. -/
def add (r : SharedReplay) (s : OutputStream) (line : String) (coming : List String) :
    SharedReplay :=
  { r with
    pumps := Function.update r.pumps s ⟨.trimming, coming⟩
    buffer := r.buffer.add line
    added := r.added ++ [⟨s, line⟩] }

/-- The pump of a stream trims the buffer and gives it back. -/
def release (r : SharedReplay) (s : OutputStream) (coming : List String) : SharedReplay :=
  { r with
    pumps := Function.update r.pumps s ⟨.reading, coming⟩
    buffer := r.buffer.trim
    owner := none }

/-- What the pump of a stream does next. It waits while the other one has the buffer, and for good
when its stream has ended. -/
def turn (r : SharedReplay) (s : OutputStream) : SharedReplay :=
  match r.pumps s with
  | ⟨.reading, []⟩ => r
  | ⟨.reading, line :: coming⟩ => r.read s line coming
  | ⟨.carrying line, coming⟩ =>
    match r.owner with
    | none => { r with owner := some s }
    | some s' => if s' = s then r.add s line coming else r
  | ⟨.trimming, coming⟩ => r.release s coming

/-- Gives the pumps their turns. -/
def run (r : SharedReplay) (schedule : List OutputStream) : SharedReplay :=
  schedule.foldl turn r

/-- Both streams have ended, and all of their lines have been added. -/
def IsDone (r : SharedReplay) : Prop :=
  ∀ s, r.pumps s = ⟨.reading, []⟩

end SharedReplay

end LocalTopology
