import LocalTopology.Build.Compile
import LocalTopology.Log
import LocalTopology.Merge

/-!
# The steps of a build

Dependencies are expanded into services, ingresses are checked, the active runner of every service
is compiled, and the manifests are written. A service without an address is recorded and left out;
any other error ends the step.
-/

namespace LocalTopology

/-- A step of a build. -/
inductive Step
  | expandDependencies
  | validateIngress
  | compileRunners
  | writeManifests
  deriving DecidableEq, Inhabited

namespace Step

/-- The name of the step. -/
def name : Step → String
  | expandDependencies => "expand-dependencies"
  | validateIngress => "validate-ingress"
  | compileRunners => "compile-runners"
  | writeManifests => "write-manifests"

/-- The steps in the order in which a build takes them. -/
def standard : List Step :=
  [expandDependencies, validateIngress, compileRunners, writeManifests]

/-- The step of a name. -/
def ofName? (name : String) : Option Step :=
  standard.find? (·.name == name)

/-- Whether the step is skipped when manifests are not written to files. -/
def needsFiles : Step → Bool
  | writeManifests => true
  | _ => false

end Step

/-- Adds the service of a dependency, unless it is there. -/
def expandDependency (services : Registry Service) (d : Dependency) :
    Except Error (Registry Service) :=
  let name := d.blueprint.serviceName
  match services.get? name with
  | none => .ok (services.put name d.service)
  | some s =>
    if s.origin = .dependency d then .ok services
    else .error (.config (.dependencyName name d))

/-- Adds the services of the dependencies of a graph. -/
def BuildState.expandDependencies (st : BuildState) (g : Graph) : Except Error BuildState := do
  let services ← g.dependencies.foldlM expandDependency st.services
  return { st with services }

/-- Checks the ingress of a service once more. -/
def checkIngress (name : String) (s : Service) : Except ConfigFault Unit :=
  match s.ingress with
  | none => .ok ()
  | some i => do
    checkHost name i.host
    if Text.startsWith "/" i.path then .ok () else .error (.compiledIngressPath name i.path)

/-- Checks the ingress of every service once more. -/
def BuildState.validateIngress (st : BuildState) : Except Error BuildState := do
  match st.services.entries.forM fun e => checkIngress e.1 e.2 with
  | .ok _ => return st
  | .error fault => .error (.config fault)

/-- Claims the port that the active runner of a service declares. -/
def claimDeclared (mode : Mode) (l : PortLedger) (name : String) (s : Service) :
    Except Error PortLedger :=
  match activeRunner mode name s with
  | .error _ => .ok l
  | .ok r =>
    match r.declaredPort with
    | none => .ok l
    | some p =>
      match l.claim name p with
      | .ok l => .ok l
      | .error fault => .error (.port fault)

/-- Compiles a service and routes its ingress, or records why it has no address. -/
def compileService (c : Context) (st : BuildState) (name : String) (s : Service) :
    Except Error BuildState :=
  match (activeRunner c.mode name s).bind (Runner.compile c name s.origin st) with
  | .error e => do
    let failure ← e.splitUnresolved
    return { st with failures := st.failures.put name failure }
  | .ok (endpoint, st) => do
    let routes ← match s.ingress, endpoint with
      | some i, .onWorkstation backend _ => st.routes.insert name i.host i.path backend
      | _, _ => .ok st.routes
    return { st with routes, endpoints := st.endpoints.put name endpoint }

/-- Compiles every service, after all declared ports are claimed, so that no offered port takes one
of them. -/
def BuildState.compileRunners (st : BuildState) (c : Context) : Except Error BuildState := do
  let ports ← st.services.entries.foldlM (fun l e => claimDeclared c.mode l e.1 e.2) st.ports
  st.services.entries.foldlM (fun st e => compileService c st e.1 e.2) { st with ports }

/-- The services that are left out, as they are met, up to the end or to an error. -/
def skipNotes (c : Context) : List (String × Service) → BuildState → List LogLine
  | [], _ => []
  | (name, s) :: rest, st =>
    match compileService c st name s with
    | .error _ => []
    | .ok next =>
      let note := match (activeRunner c.mode name s).bind (Runner.compile c name s.origin st) with
        | .error (.unresolved u) => [⟨true, s!"Skipping service '{name}': {u.message}"⟩]
        | _ => []
      note ++ skipNotes c rest next

/-- The services that compiling leaves out. -/
def compileNotes (c : Context) (st : BuildState) : List LogLine :=
  match st.services.entries.foldlM (fun l e => claimDeclared c.mode l e.1 e.2) st.ports with
  | .error _ => []
  | .ok ports => skipNotes c st.services.entries { st with ports }

/-- Writes the manifests to files. -/
def BuildState.writeManifests (st : BuildState) (c : Context) (t : FileTree) :
    Except Error BuildState × FileTree :=
  let manifests := Manifests.render st.compose st.supervisor
  match manifests.write c.home t with
  | (.ok written, t) => (.ok { st with manifests := some manifests, written := some written }, t)
  | (.error fault, t) => (.error (.system fault), t)

/-- Takes a step. -/
def Step.run (c : Context) (g : Graph) (st : BuildState) (t : FileTree) :
    Step → Except Error BuildState × FileTree
  | .expandDependencies => (st.expandDependencies g, t)
  | .validateIngress => (st.validateIngress, t)
  | .compileRunners => (st.compileRunners c, t)
  | .writeManifests => st.writeManifests c t

/-- What is noted about a step. -/
def Step.notes (c : Context) (st : BuildState) : Step → List LogLine
  | .compileRunners => compileNotes c st
  | _ => []

/-- The outcome of a build: its notes, the state or the error at which it ended, and the files. -/
structure BuildOutcome where
  notes : List LogLine
  state : Except Error BuildState
  files : FileTree

/-- Takes steps one after the other up to the first error, which names its step. -/
def runSteps (c : Context) (g : Graph) : List Step → BuildState → FileTree → BuildOutcome
  | [], st, t => ⟨[], .ok st, t⟩
  | step :: steps, st, t =>
    if step.needsFiles && !c.persists then
      let outcome := runSteps c g steps st t
      let note : LogLine :=
        ⟨false, s!"Skipping step '{step.name}': capability PersistManifests not enabled"⟩
      { outcome with notes := note :: outcome.notes }
    else
      match step.run c g st t with
      | (.error e, t) => ⟨step.notes c st, .error (.inStep step.name e), t⟩
      | (.ok next, t) =>
        let outcome := runSteps c g steps next t
        { outcome with notes := step.notes c st ++ outcome.notes }

/-- Builds a graph by steps from the start. -/
def build (c : Context) (g : Graph) (offers : List Port) (steps : List Step) (t : FileTree) :
    BuildOutcome :=
  runSteps c g steps (.ofGraph g offers) t

end LocalTopology
