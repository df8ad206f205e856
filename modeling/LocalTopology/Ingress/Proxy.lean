import LocalTopology.Ingress.Headers
import LocalTopology.Network.Dispatch

/-!
# The ingress proxy

The proxy passes a request on to the backend of the route that its host and path take, with the
headers that concern one connection left out and those that tell the origin of the request added,
and passes the answer back without the headers that concern one connection. A request that takes no
route is answered by the proxy itself, and so is one for which the backend cannot be asked or does
not answer. Methods and bodies are passed on as they are.
-/

namespace LocalTopology

/-- A request as the proxy gets it. -/
structure ProxyRequest where
  /-- The host in the target, if the target is a whole URL. -/
  authority : Option String := none
  /-- The path, which is empty if the target is no more than a host. -/
  path : String
  query : Option String := none
  headers : Headers := {}
  deriving DecidableEq, Inhabited

/-- An answer that the proxy gives itself, in plain text. -/
structure OwnReply where
  status : Nat
  body : String
  deriving DecidableEq, Inhabited

/-- The answer of a backend. -/
structure BackendReply where
  status : Nat
  headers : Headers := {}
  deriving DecidableEq, Inhabited

/-- What becomes of a request. -/
inductive ProxyDecision
  | answer (reply : OwnReply)
  | forward (route : Route) (url : String) (headers : Headers)
  deriving DecidableEq, Inhabited

/-- What a client is answered. -/
inductive ProxyReply
  | own (reply : OwnReply)
  | passedOn (reply : BackendReply)
  deriving DecidableEq, Inhabited

/-- What the proxy finds when it turns to a backend. -/
structure Upstream where
  /-- Why a text is no URL, if it is none. -/
  urlFault? : String → Option String
  /-- What is answered to a request for a URL with certain headers, if anything is. -/
  ask : String → Headers → Option BackendReply

namespace Route

/-- The answer when the URL of a request to the backend of a route is none. -/
def refused (r : Route) (fault : String) : OwnReply :=
  ⟨502, s!"Invalid upstream URI for '{r.service}': {fault}"⟩

/-- The answer when the backend of a route does not answer. -/
def unreachable (r : Route) : OwnReply :=
  ⟨502, s!"Service '{r.service}' at {r.backend.baseUrl} is unreachable"⟩

end Route

/-- An answer as it is passed on; where the protocol is changed, all of its headers are needed. -/
def BackendReply.passOn (b : BackendReply) : BackendReply :=
  if b.status = 101 then b else { b with headers := b.headers.strip }

namespace ProxyRequest

/-- The host that is asked for: that of the `host` header, else that of the target. -/
def host? (r : ProxyRequest) : Option String :=
  let named := (r.headers.first? "host").bind (·.visible?)
  ((named.map String.ofList).or r.authority).filter (!·.isEmpty)

/-- The path and the query, or the root if the request names neither. -/
def target (r : ProxyRequest) : String :=
  let named := r.path ++ (r.query.map ("?" ++ ·)).getD ""
  if named.isEmpty then "/" else named

/-- The headers that are sent to the backend. -/
def forwardedHeaders (r : ProxyRequest) (host client : String) : Headers :=
  (r.headers.strip.withUpgrade r.headers.upgradeProtocol?).withForwarded host client

/-- Decides what becomes of a request that comes from the address of a client. -/
def decide (r : ProxyRequest) (t : DispatchTable) (u : Upstream) (client : String) :
    ProxyDecision :=
  match r.host? with
  | none => .answer ⟨400, "Missing Host header"⟩
  | some host =>
    match t.resolve host r.path with
    | none => .answer ⟨404, s!"No service is routed at {host}{r.path}"⟩
    | some route =>
      let url := route.backend.baseUrl ++ r.target
      match u.urlFault? url with
      | some fault => .answer (route.refused fault)
      | none => .forward route url (r.forwardedHeaders host client)

/-- Answers a request that comes from the address of a client. -/
def handle (r : ProxyRequest) (t : DispatchTable) (u : Upstream) (client : String) : ProxyReply :=
  match r.decide t u client with
  | .answer reply => .own reply
  | .forward route url headers =>
    match u.ask url headers with
    | none => .own route.unreachable
    | some reply => .passedOn reply.passOn

end ProxyRequest

end LocalTopology
