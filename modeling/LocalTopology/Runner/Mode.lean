import LocalTopology.Service

/-!
# Execution modes

Services run on the workstation, or resolve to a named environment of deployed instances. In either
case a service has one active runner, or the reason why it has none.
-/

namespace LocalTopology

/-- Where services run. -/
inductive Mode
  | onWorkstation
  | remote (environment : String)
  deriving DecidableEq, Inhabited

namespace Mode

/-- The mode in words. -/
def text : Mode → String
  | onWorkstation => "local"
  | remote environment => s!"remote '{environment}'"

/-- The named environment, if there is one. -/
def environment? : Mode → Option String
  | onWorkstation => none
  | remote environment => some environment

end Mode

/-- Why a service has no address in a mode, while the rest of the topology can come up. -/
inductive Unresolved
  /-- The service declares remote runners only. -/
  | remoteOnly (service : String) (mode : Mode)
  /-- The remote runner of the service does not map the environment. -/
  | unmapped (service environment : String)
  deriving DecidableEq

end LocalTopology
