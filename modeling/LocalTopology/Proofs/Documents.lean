import LocalTopology.Document.Fragment
import LocalTopology.Proofs.Records

/-!
# Reading graphs that were written

A written runner reads as itself, whatever its kind and whichever of its fields are left out
(`reads_readRunner`), and so does a dependency. A written graph has what a fragment may declare, and
reads as the fragment that declares just that (`readFragment_graphNode`).
-/

namespace LocalTopology

/-- The fragment that declares a service. -/
def ServiceFragment.ofService (s : Service) : ServiceFragment where
  ingress := s.ingress.map fun i => ⟨some i.host, some i.path⟩
  runners := s.runners
  healthcheck := s.healthcheck

/-- The fragment that declares what a graph holds. -/
def Fragment.ofGraph (g : Graph) : Fragment where
  name := some g.name
  services := g.services.mapValues .ofService
  dependencies := g.dependencies

namespace Document

open Yaml

variable {height : Nat}

/-! ## Runners -/

theorem rereads_protocol (p : Protocol) : Rereads protocol height (.ofText p.scheme) p := by
  refine ⟨.text p.scheme, fun _ _ => rfl, ?_⟩
  cases p <;> rfl

theorem rereads_optionalText (s : String) : Rereads (option text) height (.ofText s) (some s) :=
  (rereads_text s).option nofun

theorem rereads_optionalPort (p : Port) : Rereads (option port) height (portNode p) (some p) :=
  (rereads_port p).option nofun

theorem rereadsFields_container : ∀ r : ContainerRunner,
    RereadsFields containerRunner (height + 1) (runnerFields (.container r)) r
  | ⟨image, containerPort, hostPort, protocol, environment, volumes, command⟩ => by
    refine Takes.rereadsFields _ ?_ (by decide) (by decide)
    simp only [runnerFields, List.append_assoc, List.cons_append, List.nil_append]
    -- Every step fills in the next field; those after it are as in a runner without them.
    refine .take ((rereads_text image).map (ContainerRunner.mk · 0 none .http ∅ [] [])) ?_
    refine .take ((rereads_port containerPort).map
      (ContainerRunner.mk image · none .http ∅ [] [])) ?_
    refine .append (takes_optional (ContainerRunner.mk image containerPort · .http ∅ [] [])
      (by decide) (fun p => (rereads_optionalPort p).map _) hostPort) ?_
    refine .take ((rereads_protocol protocol).map
      (ContainerRunner.mk image containerPort hostPort · ∅ [] [])) ?_
    refine .append (takes_environment
      (ContainerRunner.mk image containerPort hostPort protocol · [] [])
      (by decide) (fun e => (rereads_environment e).map _) environment) ?_
    refine .append (takes_texts
      (ContainerRunner.mk image containerPort hostPort protocol environment · [])
      (by decide) (fun v => (rereads_texts v).map _) volumes) ?_
    exact takes_texts (ContainerRunner.mk image containerPort hostPort protocol environment volumes)
      (by decide) (fun c => (rereads_texts c).map _) command

theorem rereadsFields_project : ∀ r : ProjectRunner,
    RereadsFields projectRunner (height + 1) (runnerFields (.project r)) r
  | ⟨project, port, protocol, workingDirectory, environment⟩ => by
    refine Takes.rereadsFields _ ?_ (by decide) (by decide)
    simp only [runnerFields, List.append_assoc, List.cons_append, List.nil_append]
    refine .take ((rereads_text project).map (ProjectRunner.mk · none .http none ∅)) ?_
    refine .append (takes_optional (ProjectRunner.mk project · .http none ∅) (by decide)
      (fun p => (rereads_optionalPort p).map _) port) ?_
    refine .take ((rereads_protocol protocol).map (ProjectRunner.mk project port · none ∅)) ?_
    refine .append (takes_optional (ProjectRunner.mk project port protocol · ∅) (by decide)
      (fun d => (rereads_optionalText d).map _) workingDirectory) ?_
    exact takes_environment (ProjectRunner.mk project port protocol workingDirectory) (by decide)
      (fun e => (rereads_environment e).map _) environment

theorem rereadsFields_executable : ∀ r : ExecutableRunner,
    RereadsFields executableRunner (height + 1) (runnerFields (.executable r)) r
  | ⟨command, arguments, port, protocol, workingDirectory, environment⟩ => by
    refine Takes.rereadsFields _ ?_ (by decide) (by decide)
    simp only [runnerFields, List.append_assoc, List.cons_append, List.nil_append]
    refine .take ((rereads_text command).map (ExecutableRunner.mk · [] none .http none ∅)) ?_
    refine .append (takes_texts (ExecutableRunner.mk command · none .http none ∅) (by decide)
      (fun as => (rereads_texts as).map _) arguments) ?_
    refine .append (takes_optional (ExecutableRunner.mk command arguments · .http none ∅)
      (by decide) (fun p => (rereads_optionalPort p).map _) port) ?_
    refine .take ((rereads_protocol protocol).map
      (ExecutableRunner.mk command arguments port · none ∅)) ?_
    refine .append (takes_optional (ExecutableRunner.mk command arguments port protocol · ∅)
      (by decide) (fun d => (rereads_optionalText d).map _) workingDirectory) ?_
    exact takes_environment (ExecutableRunner.mk command arguments port protocol workingDirectory)
      (by decide) (fun e => (rereads_environment e).map _) environment

/-- URLs are written in the order of their environments, so collecting them gives the same map. -/
theorem rereadsFields_remote (r : RemoteRunner) :
    RereadsFields remoteRunner (height + 1) (runnerFields (.remote r)) r := by
  refine Takes.rereadsFields _ (takes_field ?_) (by decide) (by decide)
  have hpairs : Rereads (pairs text) (height + 1) (.ofPairs r.environments.entries)
      r.environments.entries := rereads_pairs _
  have hread := hpairs.map fun ps => RemoteRunner.mk (.ofList ps)
  rw [SortedMap.ofList_entries] at hread
  exact hread

theorem rereadsFields_mock : ∀ r : MockRunner,
    RereadsFields mockRunner (height + 1) (runnerFields (.mock r)) r
  | ⟨specification, port, environment⟩ => by
    refine Takes.rereadsFields _ ?_ (by decide) (by decide)
    simp only [runnerFields, List.cons_append, List.nil_append]
    refine .take ((rereads_text specification).map (MockRunner.mk · none ∅)) ?_
    refine .append (takes_optional (MockRunner.mk specification · ∅) (by decide)
      (fun p => (rereads_optionalPort p).map _) port) ?_
    exact takes_environment (MockRunner.mk specification port) (by decide)
      (fun e => (rereads_environment e).map _) environment

theorem kind_mem_kinds (r : Runner) : r.kind ∈ Runner.kinds := by
  cases r <;> simp [Runner.kind, Runner.kinds]

theorem RereadsFields.reads_readRunner {α : Type} {read : Rereader α} {ofKind : α → Runner} {a : α}
    (h : RereadsFields read height (runnerFields (ofKind a)) a)
    (hread : ∀ c, runnerOf ⟨(ofKind a).kind, c⟩ = ofKind <$> read c) :
    Reads readRunner (height + 1) (runnerNode (ofKind a)) (ofKind a) := by
  obtain ⟨htype, vs, hvs, ha⟩ := h
  intro p hp
  have hkinded := reads_readKinded "internally tagged enum Runner" (kind_mem_kinds (ofKind a)) hvs
    htype p hp
  rw [readRunner, runnerNode, hkinded]
  show runnerOf _ = _
  rw [hread, ha]
  rfl

/-- A written runner reads as itself. -/
theorem reads_readRunner : ∀ r : Runner, Reads readRunner (height + 2) (runnerNode r) r
  | .container r => (rereadsFields_container r).reads_readRunner fun _ => rfl
  | .project r => (rereadsFields_project r).reads_readRunner fun _ => rfl
  | .executable r => (rereadsFields_executable r).reads_readRunner fun _ => rfl
  | .remote r => (rereadsFields_remote r).reads_readRunner fun _ => rfl
  | .mock r => (rereadsFields_mock r).reads_readRunner fun _ => rfl

theorem reads_readDependency (d : Dependency) :
    Reads readDependency (height + 1) (dependencyNode d) d := by
  intro p hp
  have hkind : d.kind ∈ Dependency.all.map (·.kind) := by cases d <;> decide
  have hkinded := reads_readKinded "internally tagged enum Dependency" hkind
    (List.Forall₂.nil : TakenIn height [] []) List.not_mem_nil p hp
  rw [readDependency, dependencyNode, hkinded]
  cases d <;> rfl

/-! ## Services and graphs -/

theorem reads_optionalText (s : String) :
    Reads (readOption readString) height (.ofText s) (some s) :=
  (reads_readText _ s).option nofun nofun

theorem reads_readIngress (i : Ingress) :
    Reads readIngress (height + 1) (ingressNode i) ⟨some i.host, some i.path⟩ := by
  refine Takes.reads_readRecord _ ?_ (by decide) (by decide)
  refine .take ((reads_optionalText i.host).map (IngressFragment.mk · none)) ?_
  exact takes_field ((reads_optionalText i.path).map (IngressFragment.mk (some i.host)))

/-- A written service has what the fragment of a service may declare. -/
theorem reads_readService (s : Service) :
    Reads readService (height + 4) (serviceNode s) (.ofService s) := by
  refine Takes.reads_readRecord _ ?_ (by decide) (by decide)
  simp only [List.append_assoc, List.cons_append, List.nil_append]
  refine .append (takes_optional
    (fun i => ServiceFragment.mk (i.map fun i => ⟨some i.host, some i.path⟩) [] none) (by decide)
    (fun i => ((reads_readIngress i).option nofun nofun).map _) s.ingress) ?_
  refine .take ((Reads.list fun r _ => reads_readRunner r).map
    (ServiceFragment.mk (ServiceFragment.ofService s).ingress · none)) ?_
  exact takes_optional (ServiceFragment.mk (ServiceFragment.ofService s).ingress s.runners)
    (by decide) (fun h => (reads_optionalText h).map _) s.healthcheck

/-- A written graph has what a fragment may declare. -/
theorem reads_readFragment (g : Graph) :
    Reads readFragment (height + 6) (graphNode g) (.ofGraph g) := by
  refine Takes.reads_readRecord _ ?_ (by decide) (by decide)
  simp only [List.cons_append, List.nil_append]
  refine .take ((reads_optionalText g.name).map (Fragment.mk · ∅ [])) ?_
  refine .take (reads_mapValues reads_readService (Fragment.mk (some g.name) · []) g.services) ?_
  refine takes_unlessEmpty (by decide) (fun he => ?_) ((Reads.list fun d _ =>
    reads_readDependency d).map (Fragment.mk (some g.name) (g.services.mapValues .ofService)))
  rw [Fragment.ofGraph, List.isEmpty_iff.1 he]

/-- A written graph is read as the fragment that declares what the graph holds. -/
theorem readFragment_graphNode (g : Graph) : readFragment .root (graphNode g) = .ok (.ofGraph g) :=
  reads_readFragment g .root (by decide : 0 + (0 + 6) ≤ depthLimit)

end Document

end LocalTopology
