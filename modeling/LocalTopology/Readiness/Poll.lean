import LocalTopology.Readiness.Gate

/-!
# Polling

A target is asked again and again until an attempt finds it healthy or polling is cancelled. An
attempt that comes to an answer counts even if polling is cancelled meanwhile.
-/

namespace LocalTopology

/-- One attempt: what it found, unless it failed, and whether polling is cancelled by then. -/
structure Attempt where
  isHealthy : Option Bool
  isCancelled : Bool := false
  deriving DecidableEq, Inhabited

/-- An attempt at a target that answers with a status, or not in time. -/
def PollTarget.attempt (t : PollTarget) (status? : Option Nat) : Attempt where
  isHealthy := some (status?.any t.accepts)

/-- How polling ended, and how many attempts it took. -/
structure PollOutcome where
  isHealthy : Bool
  attempts : Nat
  deriving DecidableEq, Inhabited

/-- The outcome of polling after some attempts; there is none while polling goes on. -/
def pollFrom (made : Nat) : List Attempt → Option PollOutcome
  | [] => none
  | a :: as =>
    if a.isHealthy = some true then some ⟨true, made + 1⟩
    else if a.isCancelled then some ⟨false, made + 1⟩
    else pollFrom (made + 1) as

/-- The outcome of polling. -/
def poll (attempts : List Attempt) : Option PollOutcome :=
  pollFrom 0 attempts

end LocalTopology
