/-!
# The newest lines

The newest lines of a tool are kept, up to a number of them, to be shown again when the tool fails.
The oldest line goes when there is one too many.
-/

namespace LocalTopology

/-- The newest lines, as many as the capacity allows. -/
structure ReplayBuffer where
  capacity : Nat
  lines : List String := []
  deriving DecidableEq, Inhabited

namespace ReplayBuffer

/-- How many lines are kept unless something else is asked for. -/
def standardCapacity : Nat := 200

/-- A buffer without lines, for at least one. -/
def ofCapacity (n : Nat) : ReplayBuffer := { capacity := max n 1 }

/-- Takes up a line, and lets go of the oldest one if there are too many. -/
def push (b : ReplayBuffer) (line : String) : ReplayBuffer :=
  let lines := b.lines ++ [line]
  { b with lines := if b.capacity < lines.length then lines.drop 1 else lines }

/-- Takes up lines one after the other. -/
def pushAll (b : ReplayBuffer) (lines : List String) : ReplayBuffer :=
  lines.foldl push b

end ReplayBuffer

end LocalTopology
