import LocalTopology.Error

/-!
# Who owns a port

Every port of a build has one owner: the service that declares it, or the service for which the
system offered it. Offered ports are held until the tools start, so nothing else can take them; an
offer that is owned already is passed over.
-/

namespace LocalTopology

/-- The owners of ports, the ports that are held, and those that the system will offer. -/
structure PortLedger where
  owners : List (Port × String) := []
  held : List Port := []
  offers : List Port := []
  deriving DecidableEq, Inhabited

namespace PortLedger

/-- The owner of a port. -/
def owner? (l : PortLedger) (p : Port) : Option String :=
  l.owners.lookup p

/-- Makes a service the owner of a port that has none. -/
def own (l : PortLedger) (p : Port) (service : String) : PortLedger :=
  { l with owners := l.owners ++ [(p, service)] }

/-- Claims a port that a service declares. Port zero cannot be claimed, and neither can the port of
another service. -/
def claim (l : PortLedger) (service : String) (p : Port) : Except PortFault PortLedger :=
  if p = 0 then .error (.zero service)
  else
    match l.owner? p with
    | none => .ok (l.own p service)
    | some owner => if owner = service then .ok l else .error (.contested p owner service)

/-- The first offered port without an owner, and the offers after it. -/
def firstFree? (l : PortLedger) : List Port → Option (Port × List Port)
  | [] => none
  | p :: ps => if (l.owner? p).isSome then firstFree? l ps else some (p, ps)

/-- Gives an offered port to a service and holds it. When the system has nothing left to offer, it
reports that no resources are left. -/
def allocate (l : PortLedger) (service : String) : Except PortFault (Port × PortLedger) :=
  match l.firstFree? l.offers with
  | none => .error (.noneFree ⟨24⟩)
  | some (p, offers) =>
    .ok (p, { l.own p service with held := l.held ++ [p], offers })

/-- The port that a service declares, or an offered one. -/
def obtain (l : PortLedger) (service : String) : Option Port → Except PortFault (Port × PortLedger)
  | some p => (l.claim service p).map fun l => (p, l)
  | none => l.allocate service

/-- Whether something else can take a port. -/
def isTakable (l : PortLedger) (p : Port) : Bool :=
  !l.held.contains p

/-- Lets go of the held ports; their owners stay. -/
def release (l : PortLedger) : PortLedger :=
  { l with held := [] }

end PortLedger

/-- What a ledger is called for; with an allocation, the ports that the system offers meanwhile. -/
inductive PortCall
  | claim (service : String) (p : Port)
  | allocate (service : String) (offered : List Port)
  | release
  deriving DecidableEq

namespace PortLedger

/-- Answers a call with a port or with none. A call that fails leaves the ledger as it was. -/
def perform (l : PortLedger) : PortCall → Except PortFault (Option Port) × PortLedger
  | .claim service p =>
    match l.claim service p with
    | .ok l => (.ok (some p), l)
    | .error fault => (.error fault, l)
  | .allocate service offered =>
    match { l with offers := offered }.allocate service with
    | .ok (p, l) => (.ok (some p), l)
    | .error fault => (.error fault, l)
  | .release => (.ok none, l.release)

/-- The ledger after calls. -/
def run (l : PortLedger) (calls : List PortCall) : PortLedger :=
  calls.foldl (fun l c => (l.perform c).2) l

end PortLedger

end LocalTopology
