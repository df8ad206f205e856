import LocalTopology.Map.Ordered
import LocalTopology.Network.Dispatch

/-!
# The dispatch table by hosts

The routes of each host stand in a bucket of their own, longer paths in front, so a request looks
through the routes of its host only. An insertion opens the bucket of its host before it knows
whether the route is acceptable. Buckets come in no order that would mean anything; here it is that
in which they were opened.
-/

namespace LocalTopology

/-- Routes by the lower case of their hosts. -/
structure HostTable where
  buckets : Registry (List Route) := .empty

namespace HostTable

/-- The routes of a host, which is in lower case. -/
def bucket (t : HostTable) (host : String) : List Route :=
  (t.buckets.get? host).getD []

/-- The table with a bucket for a host. -/
def opened (t : HostTable) (host : String) : HostTable :=
  ⟨t.buckets.putNew host []⟩

/-- The table with other routes in the bucket of a host. -/
def filled (t : HostTable) (host : String) (routes : List Route) : HostTable :=
  ⟨t.buckets.put host routes⟩

/-- Whether a route may stand in front of another. -/
def longerFirst (a b : Route) : Bool :=
  b.path.utf8ByteSize ≤ a.path.utf8ByteSize

/-- Puts another backend behind the first route of a path. -/
def redirect (path : String) (b : Backend) : List Route → List Route
  | [] => []
  | r :: rs => if r.path = path then { r with backend := b } :: rs else r :: redirect path b rs

/-- Routes a host and a path to a service. What is answered comes with the table, which has been
written to in any case. -/
def insert (t : HostTable) (service host path : String) (b : Backend) :
    Except Error Unit × HostTable :=
  let host := Text.foldCase host
  let path := DispatchTable.normalizePath path
  let t := t.opened host
  let routes := t.bucket host
  match routes.find? (·.path == path) with
  | some r =>
    if r.service = service then (.ok (), t.filled host (redirect path b routes))
    else (.error (.routeConflict host path r.service service), t)
  | none =>
    (.ok (), t.filled host (List.mergeSort (routes ++ [⟨service, host, path, b⟩]) longerFirst))

/-- The route that a request takes, by its host and its path. -/
def resolve (t : HostTable) (host path : String) : Option Route :=
  (t.buckets.get? (Text.foldCase (DispatchTable.stripPort host))).bind fun routes =>
    routes.find? fun r => DispatchTable.covers r.path path

/-- The routes, bucket by bucket. -/
def routes (t : HostTable) : List Route :=
  t.buckets.entries.flatMap (·.2)

/-- The first route of a service. -/
def routeOf? (t : HostTable) (service : String) : Option Route :=
  t.routes.find? (·.service == service)

/-- How many routes there are. -/
def size (t : HostTable) : Nat :=
  t.buckets.entries.foldr (fun e n => e.2.length + n) 0

/-- Whether there is no bucket. -/
def isEmpty (t : HostTable) : Bool :=
  t.buckets.isEmpty

end HostTable

end LocalTopology
