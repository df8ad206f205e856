import LocalTopology.Readiness.HealthCheck

/-!
# The readiness gate

A topology is ready when every check has passed once. The URLs of all checks are known before any of
them is polled, so the first one that cannot be told or is no URL of the web is the only outcome;
then the checks are polled side by side until all have passed, time is up or the run is cancelled.
-/

namespace LocalTopology

/-- How polling a check ended. -/
inductive PollEnd
  | healthy
  | unhealthy
  | crashed
  deriving DecidableEq, Inhabited

/-- What the gate takes up when it looks. Cancelling comes before anything else that has happened,
and the deadline before polls that have ended. -/
inductive GateEvent
  /-- Polling the check of an index ended. -/
  | ended (index : Nat) (result : PollEnd)
  | deadline
  | cancelled
  deriving DecidableEq, Inhabited

/-- Why the gate looks no further. -/
inductive GateEnd
  | finished
  | timedOut
  | cancelled
  deriving DecidableEq, Inhabited

/-- What the gate knows of its checks. -/
structure GateState where
  /-- The indices of the checks that are polled. -/
  polled : List Nat
  /-- Of each check, whether it has passed. -/
  passed : List Bool
  deriving DecidableEq, Inhabited

namespace GateState

/-- All checks are polled and none has passed. -/
def start (count : Nat) : GateState := ⟨List.range count, List.replicate count false⟩

/-- Takes note of how polling a check ended, which happens once for each check. -/
def note (s : GateState) (index : Nat) (result : PollEnd) : GateState :=
  if s.polled.contains index then
    { polled := s.polled.erase index
      passed := if result = .healthy then s.passed.set index true else s.passed }
  else s

/-- Takes up events until one of them ends the wait, or nothing is polled any more; without either
the wait goes on. -/
def run (s : GateState) : List GateEvent → Option (GateEnd × GateState)
  | [] => if s.polled.isEmpty then some (.finished, s) else none
  | .cancelled :: _ => some (.cancelled, s)
  | .deadline :: _ => some (.timedOut, s)
  | .ended index result :: events =>
    if s.polled.isEmpty then some (.finished, s) else (s.note index result).run events

end GateState

/-- Reads the URL of a check, which must be one of the web. -/
def checkUrl (url : String) : Except Error Url :=
  match Url.parse url with
  | .error fault => .error (.config (.malformedUrl url fault))
  | .ok u =>
    if u.scheme = "http" ∨ u.scheme = "https" then .ok u
    else .error (.config (.unsupportedScheme url u.scheme))

/-- What is polled for a check. -/
structure PollTarget where
  name : String
  url : Url
  anyResponse : Bool
  deriving DecidableEq, Inhabited

/-- Whether an answer passes a check: any answer at all, or one that reports success. -/
def PollTarget.accepts (t : PollTarget) (status : Nat) : Bool :=
  t.anyResponse || (200 ≤ status && status < 300)

/-- The checks that a topology has to pass, and the time it has for them. -/
structure ReadinessGate where
  checks : List HealthCheck
  timeout : Duration := .ofSeconds 300
  deriving Inhabited

/-- What is polled for a check, or why its URL is not known. -/
def HealthCheck.target (c : HealthCheck) (b : AddressBook) : Except Error PollTarget := do
  let url ← checkUrl (← c.resolve b)
  return { name := c.name, url, anyResponse := c.anyResponse }

namespace ReadinessGate

/-- What is polled, or the error of the first check whose URL is not known. -/
def targets (g : ReadinessGate) (b : AddressBook) : Except Error (List PollTarget) :=
  g.checks.mapM (·.target b)

/-- The names of the checks that have not passed, in order. -/
def failing (names : List String) (passed : List Bool) : List String :=
  (names.zip passed).filterMap fun (name, isPassed) => if isPassed then none else some name

/-- What becomes of the gate in the end. -/
def verdict (g : ReadinessGate) (names : List String) : GateEnd × GateState → Except Error Unit
  | (.cancelled, _) => .error (.cancelled "waiting for health checks")
  | (_, s) =>
    match failing names s.passed with
    | [] => .ok ()
    | checks => .error (.notReady checks g.timeout)

/-- Waits until every check has passed. There is no outcome while the wait goes on. -/
def wait (g : ReadinessGate) (b : AddressBook) (events : List GateEvent) :
    Option (Except Error Unit) :=
  if g.checks.isEmpty then some (.ok ())
  else
    match g.targets b with
    | .error e => some (.error e)
    | .ok targets =>
      ((GateState.start targets.length).run events).map (g.verdict (targets.map (·.name)))

end ReadinessGate

end LocalTopology
