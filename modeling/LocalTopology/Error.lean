import LocalTopology.Duration
import LocalTopology.Hostname
import LocalTopology.Runner.Mode
import LocalTopology.System.Fault
import LocalTopology.Url.Basic
import LocalTopology.Yaml.Fault

/-!
# Errors

An error is the cause of a failure, with what is needed to tell it. A cause inside a step of the
build keeps the names of the steps around it, the innermost cause being its root.
-/

namespace LocalTopology

/-- Why a document was not read. -/
inductive DocumentFault
  /-- The document is no stream of one document at most. -/
  | unreadable
  /-- The document is not of the expected shape. -/
  | misshapen (fault : Yaml.Fault)

/-- The fault behind the words that announce it. -/
def DocumentFault.after (announcement : String) : DocumentFault → String
  | unreadable => announcement
  | misshapen fault => announcement ++ ": " ++ fault.text

/-- Why a configuration is refused. -/
inductive ConfigFault
  | stated (text : String)
  | document (fault : DocumentFault)
  | unreadableFile (path : String) (fault : SystemFault)
  | inFile (path : String) (fault : ConfigFault)
  | notFound
  | unnamed
  | noRunners (service : String)
  | nothingToSelect (service : String)
  | noIngressHost (service : String)
  | refusedHost (service host : String)
  | ingressPath (service path : String)
  | compiledIngressPath (service path : String)
  | healthcheckPath (service path : String)
  | dependencyName (service : String) (dependency : Dependency)
  | malformedUrl (url : String) (fault : Url.Fault)
  | unsupportedScheme (url scheme : String)

/-- The name of the configuration file that is looked for. -/
def configFileName : String := "devstack.yaml"

namespace ConfigFault

/-- The fault in words. -/
def text : ConfigFault → String
  | stated text => text
  | document fault => fault.after "Failed to parse YAML config"
  | unreadableFile path fault => s!"Failed to read config file '{path}': {fault.text}"
  | inFile path fault => s!"{path}: {fault.text}"
  | notFound => s!"Could not find {configFileName} in current directory or any parent"
  | unnamed => "No configuration file defines a non-empty 'name'"
  | noRunners service =>
    s!"Service '{service}' declares no runners. Add at least one of: docker, dotnet, " ++
      "executable, remote, openapi"
  | nothingToSelect service => s!"Service '{service}' declares no runners"
  | noIngressHost service => s!"Service '{service}' declares an ingress without a host"
  | refusedHost service host =>
    let families := "|".intercalate Hostname.productFamilies
    let fixed := ", ".intercalate Hostname.fixedHosts
    s!"Service '{service}' declares ingress host '{host}', which is not an accepted hostname. " ++
      s!"Use '<name>.<{families}>.localhost' (optionally with a '-dev' family suffix) " ++
      s!"or one of: {fixed}"
  | ingressPath service path =>
    s!"Service '{service}' ingress path '{path}' must start with '/'"
  | compiledIngressPath service path =>
    s!"Service '{service}' has ingress path '{path}'; paths must start with '/'"
  | healthcheckPath service path =>
    s!"Service '{service}' healthcheck '{path}' must be a path starting with '/'"
  | dependencyName service dependency =>
    s!"Service '{service}' collides with the built-in '{dependency.kind}' dependency; " ++
      "rename the service"
  | malformedUrl url fault => s!"Invalid healthcheck URL '{url}': {fault.text}"
  | unsupportedScheme url scheme =>
    s!"Invalid healthcheck URL '{url}': scheme must be http or https, got '{scheme}'"

end ConfigFault

/-- Why a service has no port. -/
inductive PortFault
  | stated (text : String)
  | zero (service : String)
  | contested (port : Port) (owner service : String)
  | noneFree (fault : SystemFault)
  | proxyInUse (address : String) (fault : SystemFault)
  deriving DecidableEq

/-- The fault in words. -/
def PortFault.text : PortFault → String
  | stated text => text
  | zero service =>
    s!"Service '{service}' declares port 0; omit the port to get an ephemeral one"
  | contested port owner service =>
    s!"Port {port} is declared by both '{owner}' and '{service}'"
  | noneFree fault => s!"Failed to bind to random port: {fault.text}"
  | proxyInUse address fault =>
    s!"Ingress proxy could not listen on {address}: {fault.text}"

/-- Why a tool could not be acquired. -/
inductive AcquisitionFault
  | stated (text : String)
  | noPrebuilt (system machine : String)
  | noDirectory (path : String) (fault : SystemFault)
  | noPlace
  | unreachable (url : String)
  | refusedByServer (status : Nat) (phrase url : String)
  | cutOff
  | notMoved (fault : SystemFault)
  | notWritten (fault : SystemFault)
  | noMember (member : String)
  | noArchive (text : String)
  deriving DecidableEq

/-- The fault in words. -/
def AcquisitionFault.text : AcquisitionFault → String
  | stated text => text
  | noPrebuilt system machine => s!"no prebuilt tools for {system}/{machine}"
  | noDirectory path fault => s!"cannot create {path}: {fault.text}"
  | noPlace => "invalid install path"
  | unreachable url => s!"error sending request for url ({url})"
  | refusedByServer status phrase url =>
    let kind := if status < 500 then "client" else "server"
    s!"HTTP status {kind} error ({status} {phrase}) for url ({url})"
  | cutOff => "error decoding response body"
  | notMoved fault => s!"cannot move binary into place: {fault.text}"
  | notWritten fault => s!"IO error: {fault.text}"
  | noMember member => s!"IO error: archive does not contain '{member}'"
  | noArchive text => s!"IO error: {text}"

/-- Why an operation failed. -/
inductive Error
  | config (fault : ConfigFault)
  | inStep (step : String) (cause : Error)
  | unresolved (failure : Unresolved)
  | acquisition (tool : String) (fault : AcquisitionFault)
  | exit (tool : String) (code : Option Int)
  | notReady (checks : List String) (timeout : Duration)
  | manifestMissing (tool path : String)
  | serviceNotFound (service : String)
  | notRouted (service : String)
  | routeConflict (host path existing service : String)
  | port (fault : PortFault)
  | cancelled (operation : String)
  | document (fault : DocumentFault)
  | system (fault : SystemFault)

namespace Error

/-- The error in words. -/
def message : Error → String
  | config fault => s!"Configuration error: {fault.text}"
  | inStep step cause => s!"Pipeline step '{step}' failed: {cause.message}"
  | unresolved (.remoteOnly service mode) =>
    s!"Service '{service}' cannot run in {mode.text} mode: it only declares remote runners"
  | unresolved (.unmapped service environment) =>
    s!"Service '{service}' has no remote URL for environment '{environment}'"
  | acquisition tool fault => s!"Failed to acquire {tool}: {fault.text}"
  | exit tool (some code) => s!"{tool} exited with code {code}"
  | exit tool none => s!"{tool} exited with a signal"
  | notReady checks timeout =>
    let names := ", ".intercalate checks
    s!"Timed out after {timeout.text} waiting for health checks: {names}"
  | manifestMissing tool path => s!"Manifest for {tool} was not written: {path}"
  | serviceNotFound service => s!"Service not found: {service}"
  | notRouted service =>
    s!"Service '{service}' has no ingress and is not reachable through the proxy"
  | routeConflict host path existing service =>
    s!"Route {host}{path} is claimed by both '{existing}' and '{service}'"
  | port fault => s!"Port allocation failed: {fault.text}"
  | cancelled operation => s!"Operation cancelled: {operation}"
  | document fault => fault.after "YAML error"
  | system fault => s!"IO error: {fault.text}"

/-- The innermost cause. -/
def root : Error → Error
  | inStep _ cause => cause.root
  | e => e

/-- What can be done about the error, if something can. -/
def suggestion? : Error → Option String
  | inStep _ cause => cause.suggestion?
  | config _ => some "Validate your config with: devstack validate"
  | unresolved (.remoteOnly service _) =>
    some s!"Give '{service}' a local runner, or start with --remote-env <environment>"
  | unresolved (.unmapped service environment) =>
    some s!"Add an entry for '{environment}' under the remote runner of '{service}'"
  | acquisition .. =>
    some ("Downloads are not retried automatically. " ++
      "Run the command again once the network is available.")
  | notReady .. =>
    some ("Inspect the tool output above; increase the timeout with --timeout " ++
      "if the services are slow to boot")
  | routeConflict host path _ _ =>
    some s!"Give one of the services a different ingress host or path than {host}{path}"
  | port _ =>
    some ("Remove the fixed hostPort/port so an ephemeral port is allocated, " ++
      "or stop the process holding it")
  | serviceNotFound service =>
    some s!"'{service}' is not declared in devstack.yaml nor produced by a dependency"
  | _ => none

/-- The error in words and what can be done about it. -/
def messageWithHint (e : Error) : String :=
  match e.suggestion? with
  | some hint => s!"{e.message}\n\nHint: {hint}"
  | none => e.message

/-- The code by which documentation refers to the error. -/
def code? : Error → Option String
  | config _ => some "devstack::config::invalid"
  | inStep .. => some "devstack::pipeline::step_failed"
  | unresolved (.remoteOnly ..) => some "devstack::runner::unsupported_mode"
  | unresolved (.unmapped ..) => some "devstack::runner::missing_environment"
  | acquisition .. => some "devstack::tool::acquisition"
  | exit .. => some "devstack::tool::exit"
  | notReady .. => some "devstack::readiness::timeout"
  | manifestMissing .. => some "devstack::tool::manifest_missing"
  | serviceNotFound _ => some "devstack::service::not_found"
  | notRouted _ => some "devstack::ingress::not_reachable"
  | routeConflict .. => some "devstack::ingress::route_conflict"
  | port _ => some "devstack::port::allocation_failed"
  | _ => none

/-- Where to look for the mistake, said next to the code. -/
def help? : Error → Option String
  | config _ => some "Run \x60devstack validate\x60 to check your devstack.yaml"
  | unresolved (.remoteOnly ..) =>
    some "Add a docker, dotnet, executable or openapi runner, or run with --remote-env"
  | unresolved (.unmapped _ environment) =>
    some s!"Add '{environment}' to the 'environments' map of the remote runner"
  | acquisition .. =>
    some "Check your network connection and retry; partial downloads were removed"
  | notReady .. => some "Check the output of the failing services above, or raise --timeout"
  | serviceNotFound _ => some "Check the 'services' section of devstack.yaml"
  | notRouted _ =>
    some "Declare 'ingress: \x7b host: <name>.workleap.localhost \x7d' on the service"
  | _ => none

/-- The reason of a service without an address, or any other error. -/
def splitUnresolved : Error → Except Error Unresolved
  | unresolved failure => .ok failure
  | e => .error e

end Error

/-- The words of a service without an address. -/
def Unresolved.message (u : Unresolved) : String :=
  (Error.unresolved u).message

end LocalTopology
