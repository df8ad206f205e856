import LocalTopology.Manifest.Store
import LocalTopology.Network.Endpoint
import LocalTopology.Network.Ledger

/-!
# What a build knows and has made

The context of a build is fixed while it runs. Its state is threaded through the steps: services,
manifest entries, routes, endpoints, the reasons of services without an address, and ports.
-/

namespace LocalTopology

/-- What the steps of a build may consult besides the graph and the state. -/
structure Context where
  mode : Mode := .onWorkstation
  /-- The directory from which relative paths are taken. -/
  workDirectory : String
  home : Home
  proxyPort : Port
  /-- Whether manifests are written to files. -/
  persists : Bool := false
  deriving DecidableEq, Inhabited

/-- A path of a declaration, taken from the work directory if it is relative. -/
def Context.resolve (c : Context) (path : String) : String :=
  Path.resolve c.workDirectory path

/-- What a build has made so far. -/
structure BuildState where
  /-- The declared services, and those that provide dependencies. -/
  services : Registry Service
  compose : ComposeManifest := .empty
  supervisor : SupervisorManifest := .empty
  routes : DispatchTable := {}
  /-- Where each service with an address is reached. -/
  endpoints : Registry Endpoint := ∅
  /-- Why each service without an address has none. -/
  failures : Registry Unresolved := ∅
  ports : PortLedger := {}
  requiresMockServer : Bool := false
  manifests : Option Manifests := none
  written : Option WrittenManifests := none
  deriving DecidableEq, Inhabited

namespace BuildState

/-- The state before the first step, with the ports that the system will offer. -/
def ofGraph (g : Graph) (offers : List Port) : BuildState :=
  { services := g.services, ports := { offers } }

/-- The names of the services that provide dependencies. -/
def syntheticNames (s : BuildState) : List String :=
  (s.services.entries.filter fun e => e.2.isSynthetic).map (·.1)

end BuildState

end LocalTopology
