import LocalTopology.Build.Topology

/-!
# Health checks

A check names a URL that must answer before a topology is ready. The URL of a check that covers a
service is taken from the address book when polling starts. Services declare checks, and the web
services that nobody checks can be probed at their root.
-/

namespace LocalTopology

/-- A named check. -/
structure HealthCheck where
  name : String
  /-- The service that the check covers. -/
  service? : Option String := none
  /-- Whether any answer will do. -/
  anyResponse : Bool := false
  /-- The URL of the check, as the address book has it. -/
  resolve : AddressBook → Except Error String

instance : Inhabited HealthCheck := ⟨{ name := "", resolve := fun _ => .ok "" }⟩

namespace HealthCheck

/-- A check of a fixed URL. -/
def ofUrl (name url : String) : HealthCheck := { name, resolve := fun _ => .ok url }

/-- A check of a path under the preferred URL of a service. -/
def ofService (service path : String) : HealthCheck where
  name := service ++ path
  service? := some service
  resolve b := (b.preferredUrl service).map (joinUrl · path)

/-- A check of a path on the backend of a service. -/
def ofBackend (service path : String) : HealthCheck where
  name := service ++ path
  service? := some service
  resolve b := (b.directUrl service).map (joinUrl · path)

end HealthCheck

/-- What becomes of web services that nobody checks. -/
inductive UncheckedPolicy
  | assumeReady
  | probe
  deriving DecidableEq, Inhabited

/-- The checks of the services that declare one. -/
def declaredChecks (b : AddressBook) : List HealthCheck :=
  b.workstationEndpoints.filterMap fun (name, _) =>
    (b.healthcheckPath? name).map (HealthCheck.ofBackend name)

/-- The probes of web services that no other check covers. -/
def implicitChecks (policy : UncheckedPolicy) (b : AddressBook) (others : List HealthCheck) :
    List HealthCheck :=
  match policy with
  | .assumeReady => []
  | .probe =>
    let covered := others.filterMap (·.service?)
    b.workstationEndpoints.filterMap fun (name, endpoint) =>
      if endpoint.isWeb && !covered.contains name then
        some { HealthCheck.ofBackend name "/" with anyResponse := true }
      else none

end LocalTopology
