import LocalTopology.Build.Step
import LocalTopology.Proofs.Maps
import LocalTopology.Proofs.Ports
import LocalTopology.Proofs.Routing

/-!
# What compiling a service does

In every mode a service has a standing: it runs on the workstation by one of its runners, is
deployed elsewhere, or is nowhere to be reached (`Service.standing`). Compiling it records where it
is deployed or why it is not reached, or else obtains a port, at which its runner enters a manifest,
its ingress leads to it and its endpoint stands, and does nothing besides
(`compileService_cases`).
-/

namespace LocalTopology

open Text

/-! ## Runners on the workstation -/

@[simp]
theorem ComposeManifest.services_foldl_addVolume (volumes : List String) (m : ComposeManifest) :
    (volumes.foldl addVolume m).services = m.services := by
  induction volumes generalizing m with
  | nil => rfl
  | cons v volumes ih => exact ih (m.addVolume v)

theorem ComposeManifest.foldl_addVolume_eq_self : ∀ {volumes : List String} {m : ComposeManifest},
    (∀ v ∈ volumes, v ∈ m.volumes.keys) → volumes.foldl addVolume m = m
  | [], _, _ => rfl
  | v :: volumes, m, h => by
    obtain ⟨hv, hvolumes⟩ := List.forall_mem_cons.1 h
    have hm : m.addVolume v = m := by rw [addVolume, Registry.putNew_eq_self hv]
    rw [List.foldl_cons, hm, foldl_addVolume_eq_self hvolumes]

theorem ComposeManifest.mem_volumes_foldl_addVolume {v : String} (volumes : List String)
    (m : ComposeManifest) :
    v ∈ (volumes.foldl addVolume m).volumes.keys ↔ v ∈ m.volumes.keys ∨ v ∈ volumes := by
  induction volumes generalizing m with
  | nil => simp
  | cons w volumes ih =>
    rw [List.foldl_cons, ih, addVolume, Registry.mem_keys_putNew, List.mem_cons, or_assoc]

namespace Runner

/-- The protocol that a runner speaks on the workstation, `http` if it declares none. -/
def protocol : Runner → Protocol
  | container r => r.protocol
  | project r => r.protocol
  | executable r => r.protocol
  | mock _ => .http
  | remote _ => .http

/-- The scheme by which a runner's clients address it; those of a dependency have their own. -/
def scheme (origin : Origin) : Runner → String
  | container r =>
    match origin with
    | .declared => r.protocol.scheme
    | .dependency d => d.blueprint.scheme
  | r => r.protocol.scheme

/-- Whether a runner is a container. -/
def isContainer : Runner → Bool
  | container _ => true
  | _ => false

/-- Whether a runner is a mock server. -/
def isMock : Runner → Bool
  | mock _ => true
  | _ => false

theorem isContainer_iff {r : Runner} : r.isContainer = true ↔ ∃ q, r = container q := by
  cases r <;> simp [isContainer]

theorem isMock_iff {r : Runner} : r.isMock = true ↔ ∃ q, r = mock q := by
  cases r <;> simp [isMock]

/-- The state with the entry that a runner makes in a manifest when it runs on a port. -/
def enter (c : Context) (name : String) (origin : Origin) (p : Port) (st : BuildState) :
    Runner → BuildState
  | container r =>
    { st with
      compose := ((r.volumes.filterMap namedVolume?).foldl ComposeManifest.addVolume
        st.compose).addService name (r.entry origin p) }
  | project r =>
    { st with
      supervisor := st.supervisor.addProcess name
        ((Launch.ofProject c r).entry c ⟨r.protocol, p⟩) }
  | executable r =>
    { st with
      supervisor := st.supervisor.addProcess name
        ((Launch.ofExecutable c r).entry c ⟨r.protocol, p⟩) }
  | mock r =>
    { st with
      supervisor := st.supervisor.addProcess name (r.entry c p)
      requiresMockServer := true }
  | remote _ => st

theorem compile_eq {r : Runner} (h : r.isRemote = false) (c : Context) (name : String)
    (origin : Origin) (st : BuildState) :
    r.compile c name origin st =
      match st.ports.obtain name r.declaredPort with
      | .ok (p, ports) =>
        .ok (.onWorkstation ⟨r.protocol, p⟩ (r.scheme origin),
          r.enter c name origin p { st with ports })
      | .error fault => .error (.port fault) := by
  cases r with
  | container r =>
    simp only [compile, ContainerRunner.compile, BuildState.obtainPort, declaredPort]
    rcases st.ports.obtain name r.hostPort with fault | ⟨p, ports⟩
    · rfl
    · cases origin <;> rfl
  | project r =>
    simp only [compile, Launch.compile, BuildState.obtainPort, declaredPort, Launch.ofProject]
    rcases st.ports.obtain name r.port with fault | ⟨p, ports⟩ <;> rfl
  | executable r =>
    simp only [compile, Launch.compile, BuildState.obtainPort, declaredPort, Launch.ofExecutable]
    rcases st.ports.obtain name r.port with fault | ⟨p, ports⟩ <;> rfl
  | mock r =>
    simp only [compile, MockRunner.compile, BuildState.obtainPort, declaredPort]
    rcases st.ports.obtain name r.port with fault | ⟨p, ports⟩ <;> rfl
  | remote r => cases h

theorem compile_withPersists (c : Context) (persists : Bool) (name : String) (origin : Origin)
    (st : BuildState) : compile { c with persists } name origin st = compile c name origin st := by
  funext r
  cases r <;> rfl

section Frame

variable (r : Runner) (c : Context) (name : String) (origin : Origin) (p : Port) (st : BuildState)

@[simp]
theorem services_enter : (r.enter c name origin p st).services = st.services := by
  cases r <;> rfl

@[simp]
theorem routes_enter : (r.enter c name origin p st).routes = st.routes := by
  cases r <;> rfl

@[simp]
theorem endpoints_enter : (r.enter c name origin p st).endpoints = st.endpoints := by
  cases r <;> rfl

@[simp]
theorem failures_enter : (r.enter c name origin p st).failures = st.failures := by
  cases r <;> rfl

@[simp]
theorem ports_enter : (r.enter c name origin p st).ports = st.ports := by
  cases r <;> rfl

@[simp]
theorem manifests_enter : (r.enter c name origin p st).manifests = st.manifests := by
  cases r <;> rfl

@[simp]
theorem written_enter : (r.enter c name origin p st).written = st.written := by
  cases r <;> rfl

theorem requiresMockServer_enter :
    (r.enter c name origin p st).requiresMockServer = (st.requiresMockServer || r.isMock) := by
  cases r <;> simp [enter, isMock]

theorem container_enter_of_ne {other : String} (h : name ≠ other) :
    (r.enter c name origin p st).compose.services.get? other =
      st.compose.services.get? other := by
  cases r <;> simp [enter, ComposeManifest.addService, Registry.get?_put, h]

theorem process_enter_of_ne {other : String} (h : name ≠ other) :
    (r.enter c name origin p st).supervisor.processes.get? other =
      st.supervisor.processes.get? other := by
  cases r <;> simp [enter, SupervisorManifest.addProcess, Registry.get?_put, h]

/-- A runner enters one manifest only, by whether it runs in a container. -/
theorem container_enter_of_eq_false (h : r.isContainer = false) :
    (r.enter c name origin p st).compose = st.compose := by
  cases r <;> first | rfl | cases h

theorem process_enter_of_eq_true (h : r.isContainer = true) :
    (r.enter c name origin p st).supervisor = st.supervisor := by
  cases r <;> first | rfl | cases h

end Frame

end Runner

/-! ## The port in the manifests -/

/-- An environment has a variable of a name, in whatever spelling. -/
def Environment.Spells (env : Environment) (key : String) : Prop :=
  ∃ e ∈ env.entries, foldCase e.1 = foldCase key

instance (env : Environment) (key : String) : Decidable (env.Spells key) :=
  inferInstanceAs (Decidable (∃ e ∈ env.entries, foldCase e.1 = foldCase key))

theorem Environment.entries_putNew (env : Environment) (key value : String) :
    (env.putNew key value).entries =
      if env.Spells key then env.entries else env.entries ++ [(key, value)] := by
  have hs : env.Spells key ↔ foldCase key ∈ Entries.forms foldCase env.entries := by
    simp [Spells, Entries.forms]
  unfold OrderedMap.putNew OrderedMap.contains
  rcases hg : env.get? key with _ | v
  · have hn := OrderedMap.get?_eq_none_iff.1 hg
    rw [if_neg (fun h => hn (hs.1 h))]
    exact Entries.put_of_not_mem hn
  · have hp : env.Spells key := by
      by_contra hn
      rw [OrderedMap.get?_eq_none_iff.2 (fun h => hn (hs.2 h))] at hg
      cases hg
    rw [if_pos hp]
    rfl

/-- The variables by which a process is told where to listen: those of them that its environment
does not set itself. -/
def Backend.variables (b : Backend) (env : Environment) : List (String × String) :=
  (if env.Spells "PORT" then [] else [("PORT", toString b.port)]) ++
    if env.Spells "ASPNETCORE_URLS" then [] else [("ASPNETCORE_URLS", b.baseUrl)]

theorem Launch.environment_entry (l : Launch) (c : Context) (b : Backend) :
    (l.entry c b).environment =
      (l.environment.entries ++ b.variables l.environment).map fun e => s!"{e.1}={e.2}" := by
  have hs : Environment.Spells (l.environment.putNew "PORT" (toString b.port))
      "ASPNETCORE_URLS" ↔ l.environment.Spells "ASPNETCORE_URLS" := by
    have hne : foldCase "PORT" ≠ foldCase "ASPNETCORE_URLS" := by decide
    unfold Environment.Spells
    rw [Environment.entries_putNew]
    split_ifs
    · rfl
    · simp [hne]
  have he : ((l.environment.putNew "PORT" (toString b.port)).putNew "ASPNETCORE_URLS"
      b.baseUrl).entries = l.environment.entries ++ b.variables l.environment := by
    rw [Environment.entries_putNew, Environment.entries_putNew, Backend.variables]
    simp only [hs]
    split_ifs <;> simp
  rw [← he]
  rfl

/-- The entry of a service names the port of its backend: a container is published there, a mock
server is started on it, and other processes are told by their environment. -/
def Runner.PublishedOn (c : Context) (st : BuildState) (name : String) (b : Backend) :
    Runner → Prop
  | container r => ∃ e, st.compose.services.get? name = some e ∧
      e.ports = [s!"127.0.0.1:{b.port}:{r.containerPort}"]
  | project r => ∃ e, st.supervisor.processes.get? name = some e ∧
      e.environment = (r.environment.entries ++ b.variables r.environment).map
        fun e => s!"{e.1}={e.2}"
  | executable r => ∃ e, st.supervisor.processes.get? name = some e ∧
      e.environment = (r.environment.entries ++ b.variables r.environment).map
        fun e => s!"{e.1}={e.2}"
  | mock r => ∃ e, st.supervisor.processes.get? name = some e ∧
      e.command = Shell.commandLine [Tool.mockServer.binaryPath c.home, "mock",
        c.resolve r.specification, "--port", toString b.port, "--host", "127.0.0.1"]
  | remote _ => False

namespace Runner

theorem publishedOn_enter {r : Runner} (h : r.isRemote = false) (c : Context) (name : String)
    (origin : Origin) (p : Port) (st : BuildState) :
    r.PublishedOn c (r.enter c name origin p st) name ⟨r.protocol, p⟩ := by
  cases r with
  | container r =>
    refine ⟨r.entry origin p, ?_, ?_⟩
    · simp [enter, ComposeManifest.addService, Registry.get?_put]
    · simp [ContainerRunner.entry, ComposeService.ofImage, ComposeService.publish,
        ComposeService.withEnvironment]
  | project r =>
    refine ⟨(Launch.ofProject c r).entry c ⟨r.protocol, p⟩, ?_, Launch.environment_entry _ _ _⟩
    simp [enter, SupervisorManifest.addProcess, Registry.get?_put]
  | executable r =>
    refine ⟨(Launch.ofExecutable c r).entry c ⟨r.protocol, p⟩, ?_, Launch.environment_entry _ _ _⟩
    simp [enter, SupervisorManifest.addProcess, Registry.get?_put]
  | mock r =>
    refine ⟨r.entry c p, ?_, rfl⟩
    simp [enter, SupervisorManifest.addProcess, Registry.get?_put]
  | remote r => cases h

/-- Whether an entry names a port hangs on the manifests alone. -/
theorem PublishedOn.congr {c : Context} {st st' : BuildState} {name : String} {b : Backend}
    {r : Runner} (h : r.PublishedOn c st name b)
    (hc : st'.compose.services.get? name = st.compose.services.get? name)
    (hs : st'.supervisor.processes.get? name = st.supervisor.processes.get? name) :
    r.PublishedOn c st' name b := by
  cases r <;> simp only [PublishedOn, hc, hs] at h ⊢ <;> exact h

end Runner

/-! ## Standings -/

/-- How a service stands in a mode. -/
inductive Standing
  /-- The service runs on the workstation. -/
  | here (r : Runner)
  /-- The service is deployed at a URL. -/
  | elsewhere (url : String)
  /-- The service is not reached, for a reason. -/
  | nowhere (why : Unresolved)

/-- How a service stands in a mode. In a named environment one without runners does not stand at
all. -/
def Service.standing (s : Service) (name : String) : Mode → Option Standing
  | .onWorkstation =>
    match s.runners.find? (!·.isRemote) with
    | some r => some (.here r)
    | none => some (.nowhere (.remoteOnly name .onWorkstation))
  | .remote environment =>
    match s.runners.find? (·.isRemote) <|> s.runners.head? with
    | some (.remote r) =>
      match r.environments.get? environment with
      | some url => some (.elsewhere (trimEndSlashes url))
      | none => some (.nowhere (.unmapped name environment))
    | some r => some (.here r)
    | none => none

theorem activeRunner_cases (mode : Mode) (name : String) (s : Service) :
    (∃ r, activeRunner mode name s = .ok r ∧ r.isRemote = false ∧
        s.standing name mode = some (.here r)) ∨
      (∃ r url, activeRunner mode name s = .ok (.remote r) ∧ r.address mode name = .ok url ∧
        s.standing name mode = some (.elsewhere url)) ∨
      (∃ r why, activeRunner mode name s = .ok (.remote r) ∧
        r.address mode name = .error (.unresolved why) ∧
        s.standing name mode = some (.nowhere why)) ∨
      (∃ why, activeRunner mode name s = .error (.unresolved why) ∧
        s.standing name mode = some (.nowhere why)) ∨
      ∃ fault, activeRunner mode name s = .error (.config fault) ∧
        s.standing name mode = none := by
  unfold activeRunner Service.standing
  cases mode with
  | onWorkstation =>
    rcases hf : s.runners.find? (!·.isRemote) with _ | r <;> simp only [hf]
    · exact .inr (.inr (.inr (.inl ⟨_, rfl, rfl⟩)))
    · have hr := List.find?_some hf
      exact .inl ⟨r, rfl, by simpa using hr, rfl⟩
  | remote environment =>
    rcases s.runners.find? (·.isRemote) <|> s.runners.head? with _ | r <;> simp only
    · exact .inr (.inr (.inr (.inr ⟨_, rfl, trivial⟩)))
    · cases r with
      | remote r =>
        rcases hg : r.environments.get? environment with _ | url
        · refine .inr (.inr (.inl ⟨r, .unmapped name environment, rfl, ?_, ?_⟩))
          · simp only [RemoteRunner.address, hg]
          · simp only [hg]
        · refine .inr (.inl ⟨r, trimEndSlashes url, rfl, ?_, ?_⟩)
          · simp only [RemoteRunner.address, hg]
          · simp only [hg]
      | _ => exact .inl ⟨_, rfl, rfl, rfl⟩

theorem activeRunner_of_standing {mode : Mode} {name : String} {s : Service} {r : Runner}
    (h : s.standing name mode = some (.here r)) :
    activeRunner mode name s = .ok r ∧ r.isRemote = false := by
  rcases activeRunner_cases mode name s with ⟨r', ha, hr, hs⟩ | ⟨_, _, _, _, hs⟩ |
    ⟨_, _, _, _, hs⟩ | ⟨_, _, hs⟩ | ⟨_, _, hs⟩ <;> rw [hs] at h <;> cases h
  exact ⟨ha, hr⟩

theorem standing_of_activeRunner {mode : Mode} {name : String} {s : Service} {r : Runner}
    (ha : activeRunner mode name s = .ok r) (hr : r.isRemote = false) :
    s.standing name mode = some (.here r) := by
  rcases activeRunner_cases mode name s with ⟨r', ha', -, hs⟩ | ⟨r', _, ha', -⟩ |
    ⟨r', _, ha', -⟩ | ⟨_, ha', -⟩ | ⟨_, ha', -⟩ <;> rw [ha'] at ha <;> cases ha
  · exact hs
  · cases hr
  · cases hr

/-- Only a runner on the workstation declares a port. -/
theorem Runner.isRemote_of_declaredPort {r : Runner} {p : Port} (h : r.declaredPort = some p) :
    r.isRemote = false := by
  cases r <;> first | rfl | cases h

/-! ## Routes of ingresses -/

/-- The host and the path under which an ingress is routed. -/
def Ingress.key (i : Ingress) : String × String :=
  (foldCase i.host, DispatchTable.normalizePath i.path)

/-- The route of an ingress. -/
def Ingress.route (i : Ingress) (service : String) (b : Backend) : Route :=
  ⟨service, i.key.1, i.key.2, b⟩

@[simp]
theorem Ingress.key_route (i : Ingress) (service : String) (b : Backend) :
    (i.route service b).key = i.key := by
  rw [Ingress.route, Route.key_mk]

@[simp]
theorem Ingress.service_route (i : Ingress) (service : String) (b : Backend) :
    (i.route service b).service = service := by
  rw [Ingress.route]

@[simp]
theorem Ingress.backend_route (i : Ingress) (service : String) (b : Backend) :
    (i.route service b).backend = b := by
  rw [Ingress.route]

namespace DispatchTable

/-- The routes with that of an ingress, if there is one. -/
def withIngress (t : DispatchTable) (service : String) (b : Backend) :
    Option Ingress → Except Error DispatchTable
  | some i => t.insert service i.host i.path b
  | none => .ok t

/-- The route of an ingress takes the place of one of the same service and key, and of no other. -/
theorem withIngress_eq_ok {t t' : DispatchTable} (hw : t.WellFormed) {service : String}
    {b : Backend} {ingress : Option Ingress} (h : t.withIngress service b ingress = .ok t') :
    t'.WellFormed ∧
      (∀ x ∈ t.routes, ∀ i ∈ ingress, x.key = i.key → x.service = service) ∧
        ∀ x, x ∈ t'.routes ↔ (∃ i ∈ ingress, x = i.route service b) ∨
          (x ∈ t.routes ∧ ∀ i ∈ ingress, x.key ≠ i.key) := by
  rcases ingress with _ | i
  · cases h
    exact ⟨hw, by simp, by simp⟩
  · rcases insert_cases hw service i.host i.path b with ⟨r, -, -, he⟩ | ⟨hown, t₁, he, hw₁, hmem⟩
    · rw [withIngress, he] at h
      cases h
    · rw [withIngress, he] at h
      cases h
      refine ⟨hw₁, fun x hx j hj hk => hown x ?_, fun x => ?_⟩
      · cases hj
        exact (at?_eq_some_iff hw).2 ⟨hx, hk⟩
      · rw [hmem]
        simp [Ingress.route, Ingress.key]

/-- The route of an ingress is refused where a route of another service has its key. -/
theorem withIngress_eq_error {t : DispatchTable} (hw : t.WellFormed) {service : String}
    {b : Backend} {ingress : Option Ingress} {e : Error}
    (h : t.withIngress service b ingress = .error e) :
    ∃ i ∈ ingress, ∃ x ∈ t.routes, x.key = i.key ∧ x.service ≠ service := by
  rcases ingress with _ | i
  · cases h
  · obtain ⟨r, hr, hs, -⟩ := insert_eq_error h
    obtain ⟨hmem, hk⟩ := (at?_eq_some_iff hw).1 hr
    exact ⟨i, rfl, r, hmem, hk, hs⟩

end DispatchTable

/-! ## Services -/

section Services

variable {c : Context} {st st' : BuildState} {name : String} {s : Service}

theorem compileService_of_nowhere {why : Unresolved}
    (h : s.standing name c.mode = some (.nowhere why)) : compileService c st name s =
      .ok { st with failures := st.failures.put name why } := by
  have hb : (activeRunner c.mode name s).bind (Runner.compile c name s.origin st) =
      .error (.unresolved why) := by
    rcases activeRunner_cases c.mode name s with ⟨_, -, -, hs⟩ | ⟨_, _, -, -, hs⟩ |
      ⟨r, why', ha, hu, hs⟩ | ⟨why', ha, hs⟩ | ⟨_, -, hs⟩ <;> rw [hs] at h <;> cases h
    · simp only [ha, Except.bind, Runner.compile, hu, bind]
    · rw [ha, Except.bind]
  unfold compileService
  rw [hb]
  rfl

theorem compileService_of_elsewhere {url : String}
    (h : s.standing name c.mode = some (.elsewhere url)) : compileService c st name s =
      .ok { st with endpoints := st.endpoints.put name (.remote url) } := by
  have hb : (activeRunner c.mode name s).bind (Runner.compile c name s.origin st) =
      .ok (.remote url, st) := by
    rcases activeRunner_cases c.mode name s with ⟨_, -, -, hs⟩ | ⟨r, url', ha, hu, hs⟩ |
      ⟨_, _, -, -, hs⟩ | ⟨_, -, hs⟩ | ⟨_, -, hs⟩ <;> rw [hs] at h <;> cases h
    simp only [ha, Except.bind, Runner.compile, hu, bind, pure, Except.pure]
  unfold compileService
  rw [hb]
  cases s.ingress <;> rfl

/-- A service on the workstation obtains a port, and then its ingress is routed there. -/
theorem compileService_of_here {r : Runner} (h : s.standing name c.mode = some (.here r)) :
    compileService c st name s =
      match st.ports.obtain name r.declaredPort with
      | .error fault => .error (.port fault)
      | .ok (p, ports) =>
        (st.routes.withIngress name ⟨r.protocol, p⟩ s.ingress).map fun routes =>
          { r.enter c name s.origin p { st with ports } with
            routes
            endpoints := st.endpoints.put name
              (.onWorkstation ⟨r.protocol, p⟩ (r.scheme s.origin)) } := by
  obtain ⟨ha, hr⟩ := activeRunner_of_standing h
  unfold compileService
  rw [ha, Except.bind, Runner.compile_eq hr]
  rcases st.ports.obtain name r.declaredPort with fault | ⟨p, ports⟩
  · rfl
  · simp only [Runner.routes_enter, Runner.endpoints_enter]
    rcases s.ingress with _ | i
    · rfl
    · simp only [DispatchTable.withIngress]
      rcases st.routes.insert name i.host i.path ⟨r.protocol, p⟩ with e | routes <;> rfl

/-- All that compiling a service does. -/
theorem compileService_cases (h : compileService c st name s = .ok st') :
    (∃ why, s.standing name c.mode = some (.nowhere why) ∧
        st' = { st with failures := st.failures.put name why }) ∨
      (∃ url, s.standing name c.mode = some (.elsewhere url) ∧
        st' = { st with endpoints := st.endpoints.put name (.remote url) }) ∨
      ∃ r p ports routes, s.standing name c.mode = some (.here r) ∧
        st.ports.obtain name r.declaredPort = .ok (p, ports) ∧
        st.routes.withIngress name ⟨r.protocol, p⟩ s.ingress = .ok routes ∧
        st' = { r.enter c name s.origin p { st with ports } with
          routes
          endpoints := st.endpoints.put name
            (.onWorkstation ⟨r.protocol, p⟩ (r.scheme s.origin)) } := by
  rcases hs : s.standing name c.mode with _ | r | url | why
  · rcases activeRunner_cases c.mode name s with ⟨_, -, -, hs'⟩ | ⟨_, _, -, -, hs'⟩ |
      ⟨_, _, -, -, hs'⟩ | ⟨_, -, hs'⟩ | ⟨fault, ha, -⟩
    · cases hs.symm.trans hs'
    · cases hs.symm.trans hs'
    · cases hs.symm.trans hs'
    · cases hs.symm.trans hs'
    · unfold compileService at h
      rw [ha] at h
      cases h
  · rw [compileService_of_here hs] at h
    rcases ho : st.ports.obtain name r.declaredPort with fault | ⟨p, ports⟩ <;> rw [ho] at h
    · cases h
    · simp only at h
      rcases hr : st.routes.withIngress name ⟨r.protocol, p⟩ s.ingress with e | routes <;>
        rw [hr] at h <;> cases h
      exact .inr (.inr ⟨r, p, ports, routes, rfl, ho, hr, rfl⟩)
  · rw [compileService_of_elsewhere hs] at h
    cases h
    exact .inr (.inl ⟨url, rfl, rfl⟩)
  · rw [compileService_of_nowhere hs] at h
    cases h
    exact .inl ⟨why, rfl, rfl⟩

theorem services_compileService (h : compileService c st name s = .ok st') :
    st'.services = st.services := by
  rcases compileService_cases h with ⟨why, -, rfl⟩ | ⟨url, -, rfl⟩ | ⟨r, p, _, _, -, -, -, rfl⟩
  · rfl
  · rfl
  · simp

/-- A service that stands somewhere fails to be compiled for want of a port or of a route. -/
theorem compileService_eq_error {e : Error} (h : compileService c st name s = .error e)
    (hs : (s.standing name c.mode).isSome = true) :
    ∃ r, s.standing name c.mode = some (.here r) ∧
      ((∃ fault, st.ports.obtain name r.declaredPort = .error fault ∧ e = .port fault) ∨
        ∃ b, st.routes.withIngress name b s.ingress = .error e) := by
  obtain ⟨x, hx⟩ := Option.isSome_iff_exists.1 hs
  rcases x with r | url | why
  · refine ⟨r, hx, ?_⟩
    rw [compileService_of_here hx] at h
    rcases ho : st.ports.obtain name r.declaredPort with fault | ⟨p, ports⟩ <;> rw [ho] at h
    · cases h
      exact .inl ⟨fault, rfl, rfl⟩
    · simp only at h
      rcases hr : st.routes.withIngress name ⟨r.protocol, p⟩ s.ingress with e' | routes <;>
        rw [hr] at h <;> cases h
      exact .inr ⟨_, hr⟩
  · rw [compileService_of_elsewhere hx] at h
    cases h
  · rw [compileService_of_nowhere hx] at h
    cases h

end Services

end LocalTopology
