import LocalTopology.Error

/-!
# The dispatch table

A route leads from a host and a path to the backend of a service. The table holds at most one route
for a host in lower case and a path without slashes at its end, and keeps routes with longer paths
in front of shorter ones. A request takes the first route of its host whose path is a whole
beginning of its own.
-/

namespace LocalTopology

/-- The port of the proxy, unless another one is asked for. -/
def standardProxyPort : Port := 1347

/-- Where a route leads to, on the workstation. -/
structure Backend where
  protocol : Protocol
  port : Port
  deriving DecidableEq, Inhabited

namespace Backend

/-- The host that is addressed; certificates are made out to a name. -/
def host (b : Backend) : String :=
  match b.protocol with
  | .http => "127.0.0.1"
  | .https => "localhost"

/-- The host and the port. -/
def authority (b : Backend) : String :=
  s!"{b.host}:{b.port}"

/-- The URL under which the backend answers. -/
def baseUrl (b : Backend) : String :=
  s!"{b.protocol.scheme}://{b.authority}"

end Backend

/-- A host, a path and the service that answers there. -/
structure Route where
  service : String
  /-- The host in lower case. -/
  host : String
  /-- A slash, or a path that starts with one and ends with none. -/
  path : String
  backend : Backend
  deriving DecidableEq, Inhabited

/-- Routes, those with longer paths first. -/
structure DispatchTable where
  routes : List Route := []
  deriving DecidableEq, Inhabited

namespace DispatchTable

/-- The path without slashes at its end and with one at its start. -/
def normalizePath (path : String) : String :=
  let trimmed := Text.trimEndSlashes path
  if trimmed.isEmpty then "/" else if Text.startsWith "/" trimmed then trimmed else "/" ++ trimmed

/-- The host without a port behind it. -/
def stripPort (host : String) : String :=
  match Text.cutLast? ':' host.toList with
  | some (name, port) =>
    if !name.isEmpty && port.all Char.isDigit then String.ofList name else host
  | none => host

/-- Whether a path is a whole beginning of another: what follows is nothing, a further segment or a
query. -/
def covers (path requested : String) : Bool :=
  path == "/" ||
    match path.toList.isPrefixOf? requested.toList with
    | some rest => rest.head?.all fun c => c == '/' || c == '?'
    | none => false

/-- Adds a route behind those whose path is at least as long. -/
def place (r : Route) : List Route → List Route
  | [] => [r]
  | x :: xs => if x.path.utf8ByteSize < r.path.utf8ByteSize then r :: x :: xs else x :: place r xs

/-- Puts another backend behind the route of a host and a path. -/
def redirect (host path : String) (b : Backend) : List Route → List Route
  | [] => []
  | r :: rs =>
    if r.host = host ∧ r.path = path then { r with backend := b } :: rs
    else r :: redirect host path b rs

/-- The route of a host and a path, both in normal form. -/
def at? (t : DispatchTable) (host path : String) : Option Route :=
  t.routes.find? fun r => r.host == host && r.path == path

/-- Routes a host and a path to a service. Only the service that has the route already may do so
again. -/
def insert (t : DispatchTable) (service host path : String) (b : Backend) :
    Except Error DispatchTable :=
  let host := Text.foldCase host
  let path := normalizePath path
  match t.at? host path with
  | some r =>
    if r.service = service then .ok ⟨redirect host path b t.routes⟩
    else .error (.routeConflict host path r.service service)
  | none => .ok ⟨place ⟨service, host, path, b⟩ t.routes⟩

/-- The route that a request takes, by its host and its path. -/
def resolve (t : DispatchTable) (host path : String) : Option Route :=
  let host := Text.foldCase (stripPort host)
  t.routes.find? fun r => r.host == host && covers r.path path

/-- The first route of a service. -/
def routeOf? (t : DispatchTable) (service : String) : Option Route :=
  t.routes.find? (·.service == service)

/-- The hosts on which a service has routes, each once. -/
def hostsOf (t : DispatchTable) (service : String) : List String :=
  ((t.routes.filter (·.service == service)).map (·.host)).eraseDups

/-- How many routes there are. -/
def size (t : DispatchTable) : Nat :=
  t.routes.length

/-- Whether there is no route. -/
def isEmpty (t : DispatchTable) : Bool :=
  t.routes.isEmpty

/-- Whether a route comes before another when hosts are listed in order. -/
def hostLe (a b : Route) : Bool :=
  !(b.host < a.host)

/-- The routes by host, those of one host in the order of the table. -/
def listed (t : DispatchTable) : List Route :=
  t.routes.mergeSort hostLe

end DispatchTable

end LocalTopology
