import LocalTopology.Network.Dispatch

/-!
# Endpoints

A compiled service is reached on the workstation, under the scheme that its clients use, or at the
URL of a deployed instance.
-/

namespace LocalTopology

/-- Where a compiled service is reached. -/
inductive Endpoint
  | onWorkstation (backend : Backend) (scheme : String)
  | remote (url : String)
  deriving DecidableEq, Inhabited

namespace Endpoint

/-- The endpoint of a backend that is addressed by its own protocol. -/
def ofBackend (b : Backend) : Endpoint :=
  onWorkstation b b.protocol.scheme

/-- The URL that bypasses the proxy. -/
def directUrl : Endpoint → String
  | onWorkstation backend scheme => s!"{scheme}://{backend.authority}"
  | remote url => url

/-- The backend of an endpoint on the workstation. -/
def backend? : Endpoint → Option Backend
  | onWorkstation backend _ => some backend
  | remote _ => none

/-- Whether the endpoint is that of a deployed instance. -/
def isRemote : Endpoint → Bool
  | onWorkstation .. => false
  | remote _ => true

/-- Whether the endpoint answers requests of the web. -/
def isWeb : Endpoint → Bool
  | onWorkstation _ scheme => scheme == "http" || scheme == "https"
  | remote _ => false

end Endpoint

end LocalTopology
