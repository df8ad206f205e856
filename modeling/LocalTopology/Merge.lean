import LocalTopology.Error
import LocalTopology.Text.Blank

/-!
# Merging fragments

Fragments merge one on top of the other into one fragment: what a later one sets wins, services,
runners and dependencies keep the order of their first declaration, and a runner that is declared
again is absorbed. The merged fragment becomes a graph if it has a name and every service has a
runner, an accepted host or none, and paths that start with a slash.
-/

namespace LocalTopology

/-- Absorbs a runner into the first one with its target, or adds it at the end. -/
def addRunner (incoming : Runner) : List Runner → List Runner
  | [] => [incoming]
  | r :: rs => if r.sameTarget incoming then r.absorb incoming :: rs else r :: addRunner incoming rs

/-- Adds runners one after the other. -/
def addRunners (rs incoming : List Runner) : List Runner :=
  incoming.foldl (fun rs r => addRunner r rs) rs

/-- Adds a dependency that is not among the others. -/
def addDependency (ds : List Dependency) (d : Dependency) : List Dependency :=
  if ds.contains d then ds else ds ++ [d]

/-- Sets what a later declaration of the ingress sets. -/
def IngressFragment.merge (base top : IngressFragment) : IngressFragment where
  host := top.host <|> base.host
  path := top.path <|> base.path

namespace ServiceFragment

/-- Sets what a later declaration of the service sets. -/
def merge (base top : ServiceFragment) : ServiceFragment where
  ingress := match top.ingress with
    | some i => some ((base.ingress.getD {}).merge i)
    | none => base.ingress
  runners := addRunners base.runners top.runners
  healthcheck := top.healthcheck <|> base.healthcheck

end ServiceFragment

namespace Fragment

/-- Merges a declaration of a service into those of its name. -/
def addService (services : Registry ServiceFragment) (name : String) (s : ServiceFragment) :
    Registry ServiceFragment :=
  services.put name (((services.get? name).getD {}).merge s)

/-- Sets what a later fragment sets. -/
def merge (base top : Fragment) : Fragment where
  name := (top.name.filter fun n => !Text.isAllBlank n) <|> base.name
  services := top.services.entries.foldl (fun m e => addService m e.1 e.2) base.services
  dependencies := top.dependencies.foldl addDependency base.dependencies

/-- Merges fragments in order. -/
def mergeAll (fs : List Fragment) : Fragment :=
  fs.foldl merge {}

end Fragment

/-- Refuses an ingress host that is not accepted. -/
def checkHost (service host : String) : Except ConfigFault Unit :=
  if Hostname.isAccepted host then .ok () else .error (.refusedHost service host)

/-- The ingress of a service, complete. -/
def IngressFragment.complete (service : String) (i : IngressFragment) :
    Except ConfigFault Ingress :=
  match i.host with
  | none => .error (.noIngressHost service)
  | some host => do
    checkHost service host
    let path := i.path.getD Ingress.defaultPath
    if Text.startsWith "/" path then .ok ⟨host, path⟩ else .error (.ingressPath service path)

/-- A service, complete. -/
def ServiceFragment.complete (name : String) (s : ServiceFragment) :
    Except ConfigFault Service := do
  if s.runners.isEmpty then .error (.noRunners name)
  let ingress ← match s.ingress with
    | none => pure none
    | some i => some <$> i.complete name
  match s.healthcheck with
  | some path =>
    if Text.startsWith "/" path then pure () else .error (.healthcheckPath name path)
  | none => pure ()
  return { ingress, runners := s.runners, healthcheck := s.healthcheck }

/-- The graph of a fragment. -/
def Fragment.complete (f : Fragment) : Except ConfigFault Graph :=
  match f.name with
  | none => .error .unnamed
  | some name => do
    let services ← f.services.traverse fun name s => s.complete name
    return { name, services, dependencies := f.dependencies }

/-- The graph of several fragments, the later ones on top of the earlier ones. -/
def Graph.ofFragments (fs : List Fragment) : Except ConfigFault Graph :=
  (Fragment.mergeAll fs).complete

end LocalTopology
