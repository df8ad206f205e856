import LocalTopology.Dependency

/-!
# Services and graphs

A fragment is what one document declares, with every part optional. A service is one addressable
unit of a graph, which merges the fragments of a run.
-/

namespace LocalTopology

/-- The host and the path at which a service is reached through the proxy. -/
structure Ingress where
  host : String
  path : String
  deriving DecidableEq, Inhabited

/-- The path of an ingress that declares none. -/
def Ingress.defaultPath : String := "/"

/-- Where a service came from. -/
inductive Origin
  | declared
  | dependency (kind : Dependency)
  deriving DecidableEq, Inhabited

/-- One addressable unit of a graph, with its runners in order of declaration. -/
structure Service where
  ingress : Option Ingress := none
  runners : List Runner
  /-- The path that is polled until the service is ready. -/
  healthcheck : Option String := none
  origin : Origin := .declared
  deriving DecidableEq, Inhabited

/-- Whether the service provides a dependency. -/
def Service.isSynthetic (s : Service) : Bool :=
  s.origin != .declared

/-- The service that provides a dependency. -/
def Dependency.service (d : Dependency) : Service :=
  { runners := [d.runner], origin := .dependency d }

/-- The part of an ingress that one document declares. -/
structure IngressFragment where
  host : Option String := none
  path : Option String := none
  deriving DecidableEq, Inhabited

/-- The part of a service that one document declares. -/
structure ServiceFragment where
  ingress : Option IngressFragment := none
  runners : List Runner := []
  healthcheck : Option String := none
  deriving DecidableEq, Inhabited

/-- What one document declares. -/
structure Fragment where
  name : Option String := none
  services : Registry ServiceFragment := ∅
  dependencies : List Dependency := []
  deriving DecidableEq, Inhabited

/-- The services of one run, in the order of their first declaration. -/
structure Graph where
  name : String
  services : Registry Service := ∅
  dependencies : List Dependency := []
  deriving DecidableEq, Inhabited

end LocalTopology
