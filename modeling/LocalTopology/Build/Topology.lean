import LocalTopology.Build.Step

/-!
# Compiled topologies

The outcome of a build: both manifests, the routes, and a book of the addresses of its services. A
service that has a route is addressed through the proxy unless it is asked for directly.
-/

namespace LocalTopology

/-- What is known of the address of a service. -/
inductive AddressEntry
  /-- The endpoint, the ingress of a service that has a route, and the path that is polled. -/
  | reached (endpoint : Endpoint) (ingress : Option Ingress) (healthcheck : Option String)
  | failed (failure : Unresolved)
  deriving DecidableEq

/-- The addresses of the services of a topology, in order. -/
structure AddressBook where
  proxyPort : Port
  entries : List (String × AddressEntry) := []
  deriving DecidableEq, Inhabited

namespace AddressBook

/-- The entry of a service of a built state. -/
def entryOf? (st : BuildState) (name : String) (s : Service) : Option AddressEntry :=
  match st.failures.get? name, st.endpoints.get? name with
  | some failure, _ => some (.failed failure)
  | none, some endpoint =>
    let isRouted := (st.routes.routeOf? name).isSome
    some (.reached endpoint (s.ingress.filter fun _ => isRouted) s.healthcheck)
  | none, none => none

/-- The addresses of a built state. -/
def ofState (st : BuildState) (proxyPort : Port) : AddressBook where
  proxyPort := proxyPort
  entries := st.services.entries.filterMap fun (name, s) =>
    (entryOf? st name s).map fun e => (name, e)

/-- A host and a path under the port of the proxy. -/
def proxied (b : AddressBook) (i : Ingress) : String :=
  s!"http://{Text.foldCase i.host}:{b.proxyPort}" ++ Text.trimEndSlashes i.path

/-- The endpoint of a service, and its ingress if it has a route. -/
def find (b : AddressBook) (service : String) : Except Error (Endpoint × Option Ingress) :=
  match b.entries.lookup service with
  | some (.reached endpoint ingress _) => .ok (endpoint, ingress)
  | some (.failed failure) => .error (.unresolved failure)
  | none => .error (.serviceNotFound service)

/-- The preferred URL of a service: that of a deployed instance, else that of its route, else that
of its backend. -/
def preferredUrl (b : AddressBook) (service : String) : Except Error String := do
  match ← b.find service with
  | (.remote url, _) => return url
  | (_, some i) => return b.proxied i
  | (endpoint, none) => return endpoint.directUrl

/-- The URL of a service through the proxy. -/
def proxyUrl (b : AddressBook) (service : String) : Except Error String := do
  match ← b.find service with
  | (_, some i) => return b.proxied i
  | (_, none) => .error (.notRouted service)

/-- The URL of a service that bypasses the proxy. -/
def directUrl (b : AddressBook) (service : String) : Except Error String := do
  return (← b.find service).1.directUrl

/-- The path at which a service is polled. -/
def healthcheckPath? (b : AddressBook) (service : String) : Option String :=
  match b.entries.lookup service with
  | some (.reached _ _ healthcheck) => healthcheck
  | _ => none

/-- The services on the workstation with their endpoints. -/
def workstationEndpoints (b : AddressBook) : List (String × Endpoint) :=
  b.entries.filterMap fun (name, e) =>
    match e with
    | .reached endpoint _ _ => if endpoint.isRemote then none else some (name, endpoint)
    | .failed _ => none

/-- The services. -/
def services (b : AddressBook) : List String :=
  b.entries.map (·.1)

/-- The services without an address, and why. -/
def failures (b : AddressBook) : List (String × Unresolved) :=
  b.entries.filterMap fun (name, e) =>
    match e with
    | .reached .. => none
    | .failed failure => some (name, failure)

end AddressBook

/-- A URL extended by a path, with exactly one slash between them. -/
def joinUrl (base path : String) : String :=
  Text.trimEndSlashes base ++ "/" ++ Text.trimStartSlashes path

/-- A compiled graph. -/
structure Topology where
  name : String
  mode : Mode
  manifests : Manifests
  routes : DispatchTable
  addresses : AddressBook
  written : Option WrittenManifests
  requiresMockServer : Bool
  ports : PortLedger
  deriving DecidableEq

namespace Topology

/-- The topology of a built state. -/
def ofState (c : Context) (g : Graph) (st : BuildState) : Topology where
  name := g.name
  mode := c.mode
  manifests := st.manifests.getD (.render st.compose st.supervisor)
  routes := st.routes
  addresses := .ofState st c.proxyPort
  written := st.written
  requiresMockServer := st.requiresMockServer
  ports := st.ports

end Topology

/-- Compiles a graph, writing the manifests if the context says so. -/
def Graph.compile (g : Graph) (c : Context) (offers : List Port) (t : FileTree) :
    Except Error Topology × FileTree :=
  let outcome := build c g offers Step.standard t
  (outcome.state.map (.ofState c g), outcome.files)

end LocalTopology
