import LocalTopology.Duration

/-!
# Backing off

The pauses between attempts double from the first one on and are capped; doubling stops at the
longest duration instead of wrapping around.
-/

namespace LocalTopology

/-- Pauses that grow from `initial` by doubling, up to `cap`. -/
structure Backoff where
  initial : Duration
  cap : Duration
  deriving DecidableEq

namespace Backoff

/-- A quarter of a second at first and five seconds at most. -/
def standard : Backoff := ⟨.ofMillis 250, .ofSeconds 5⟩

/-- The pause after a given one. -/
def next (b : Backoff) (d : Duration) : Duration :=
  d.double.shorter b.cap

/-- The pause after the attempt of index `n`. -/
def delay (b : Backoff) : Nat → Duration
  | 0 => b.initial
  | n + 1 => b.next (b.delay n)

/-- The first `n` pauses, the given one coming first. -/
def delaysFrom (b : Backoff) (d : Duration) : Nat → List Duration
  | 0 => []
  | n + 1 => d :: delaysFrom b (b.next d) n

/-- The first `n` pauses. -/
def delays (b : Backoff) (n : Nat) : List Duration :=
  b.delaysFrom b.initial n

end Backoff

end LocalTopology
