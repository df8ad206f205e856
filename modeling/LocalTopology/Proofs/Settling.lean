import LocalTopology.Proofs.Traces

/-!
# What compiled services leave

Where every service on the workstation declares its port, a state whose services are all compiled is
told by them: it holds an endpoint, an entry in a manifest, a route or the owner of a port exactly
if a service found under a name makes it so (`Settled`). How the loop came to the services does not
show.
-/

namespace LocalTopology

/-! ## Entries of manifests -/

namespace Runner

/-- The entry of a runner among the containers. -/
def container? (origin : Origin) (p : Port) : Runner → Option ComposeService
  | container r => some (r.entry origin p)
  | _ => none

/-- The entry of a runner among the processes. -/
def process? (c : Context) (p : Port) : Runner → Option SupervisedProcess
  | project r => some ((Launch.ofProject c r).entry c ⟨r.protocol, p⟩)
  | executable r => some ((Launch.ofExecutable c r).entry c ⟨r.protocol, p⟩)
  | mock r => some (r.entry c p)
  | _ => none

theorem isContainer_of_container? {r : Runner} {origin : Origin} {p : Port}
    (h : (r.container? origin p).isSome = true) : r.isContainer = true := by
  cases r <;> first | rfl | cases h

theorem isContainer_of_process? {r : Runner} {c : Context} {p : Port}
    (h : (r.process? c p).isSome = true) : r.isContainer = false := by
  cases r <;> first | rfl | cases h

variable {r : Runner} {c : Context} {name n : String} {origin : Origin} {p : Port}
  {st : BuildState}

theorem container?_of_enter {e : ComposeService}
    (h : (r.enter c name origin p st).compose.services.get? n = some e) :
    st.compose.services.get? n = some e ∨ (name = n ∧ r.container? origin p = some e) := by
  by_cases hn : name = n
  · cases r with
    | container r =>
      simp only [enter, ComposeManifest.addService, Registry.get?_put, if_pos hn] at h
      exact .inr ⟨hn, h⟩
    | _ => exact .inl h
  · rw [container_enter_of_ne _ _ _ _ _ _ hn] at h
    exact .inl h

theorem process?_of_enter {e : SupervisedProcess}
    (h : (r.enter c name origin p st).supervisor.processes.get? n = some e) :
    st.supervisor.processes.get? n = some e ∨ (name = n ∧ r.process? c p = some e) := by
  by_cases hn : name = n
  · cases r with
    | container r => exact .inl h
    | remote r => exact .inl h
    | _ =>
      simp only [enter, SupervisorManifest.addProcess, Registry.get?_put, if_pos hn] at h
      exact .inr ⟨hn, h⟩
  · rw [process_enter_of_ne _ _ _ _ _ _ hn] at h
    exact .inl h

end Runner

/-- The active runner of every service on the workstation declares a port. -/
def DeclarePorts (services : Registry Service) (mode : Mode) : Prop :=
  ∀ n s r, Hosts services mode n s r → ∃ p, r.declaredPort = some p

/-- The entries of a manifest are those that the runners of services make on the ports that they
declare, if they declare any. -/
def EntriesMade {α : Type} (m : Registry α) (services : Registry Service) (mode : Mode)
    (make : Service → Runner → Port → Option α) : Prop :=
  ∀ n e, m.get? n = some e → ∃ s r p, Hosts services mode n s r ∧
    (∀ q, r.declaredPort = some q → p = q) ∧ make s r p = some e

/-- A manifest that has an entry for every runner that makes one has nothing else. -/
theorem EntriesMade.get?_iff {α : Type} {m : Registry α} {services : Registry Service} {mode : Mode}
    {make : Service → Runner → Port → Option α} (h : EntriesMade m services mode make)
    (hports : DeclarePorts services mode) {n : String}
    (hmade : ∀ s r p, Hosts services mode n s r → r.declaredPort = some p →
      (make s r p).isSome = true → n ∈ m.keys) {e : α} :
    m.get? n = some e ↔ ∃ s r p, Hosts services mode n s r ∧ r.declaredPort = some p ∧
      make s r p = some e := by
  have htold : ∀ e, m.get? n = some e → ∃ s r p, Hosts services mode n s r ∧
      r.declaredPort = some p ∧ make s r p = some e := by
    intro e he
    obtain ⟨s, r, p, hh, hdeclared, hentry⟩ := h n e he
    obtain ⟨q, hq⟩ := hports n s r hh
    obtain rfl := hdeclared q hq
    exact ⟨s, r, p, hh, hq, hentry⟩
  refine ⟨htold e, ?_⟩
  rintro ⟨s, r, p, hh, hp, hentry⟩
  obtain ⟨e', he'⟩ := Registry.mem_keys_iff.1 (hmade s r p hh hp (by rw [hentry]; rfl))
  -- The entry under the name is made by the same runner on the same port.
  obtain ⟨s', r', p', hh', hp', hentry'⟩ := htold e' he'
  cases hh.service.symm.trans hh'.service
  cases hh.stands.symm.trans hh'.stands
  cases hp.symm.trans hp'
  rw [he', ← hentry', hentry]

namespace BuildState

variable {services : Registry Service} {st st' a a' : BuildState} {c : Context} {name n : String}
  {s : Service} {p : Port}

/-- The containers of a state are those of its services. -/
def ContainersMade (a : BuildState) (services : Registry Service) (c : Context) : Prop :=
  EntriesMade a.compose.services services c.mode fun s r p => r.container? s.origin p

/-- The processes of a state are those of its services. -/
def ProcessesMade (a : BuildState) (services : Registry Service) (c : Context) : Prop :=
  EntriesMade a.supervisor.processes services c.mode fun _ r p => r.process? c p

theorem ContainersMade.compileService (h : a.ContainersMade services c)
    (hs : services.get? name = some s) (hc : LocalTopology.compileService c a name s = .ok a') :
    a'.ContainersMade services c := by
  rcases compileService_cases hc with ⟨why, -, rfl⟩ | ⟨url, -, rfl⟩ |
    ⟨r, p, ports, routes, hstands, ho, -, rfl⟩
  · exact h
  · exact h
  · intro n e he
    rcases Runner.container?_of_enter he with hold | ⟨rfl, hentry⟩
    · exact h n e hold
    · exact ⟨s, r, p, ⟨hs, hstands⟩, (PortLedger.obtain_eq_ok ho).1, hentry⟩

theorem ProcessesMade.compileService (h : a.ProcessesMade services c)
    (hs : services.get? name = some s) (hc : LocalTopology.compileService c a name s = .ok a') :
    a'.ProcessesMade services c := by
  rcases compileService_cases hc with ⟨why, -, rfl⟩ | ⟨url, -, rfl⟩ |
    ⟨r, p, ports, routes, hstands, ho, -, rfl⟩
  · exact h
  · exact h
  · intro n e he
    rcases Runner.process?_of_enter he with hold | ⟨rfl, hentry⟩
    · exact h n e hold
    · exact ⟨s, r, p, ⟨hs, hstands⟩, (PortLedger.obtain_eq_ok ho).1, hentry⟩

theorem containersMade_compileRunners (hcompose : st.compose = .empty)
    (h : st.compileRunners c = .ok a) : a.ContainersMade st.services c := by
  obtain ⟨ports, -, hc⟩ := compileRunners_eq_ok h
  have hstart : ContainersMade { st with ports } st.services c := by
    intro n e he
    rw [hcompose] at he
    cases he
  exact foldlM_induction (P := fun a => a.ContainersMade st.services c) hstart
    (fun x hx a a' ha hstep => ha.compileService (Registry.get?_eq_some_iff.2 hx) hstep) hc

theorem processesMade_compileRunners (hsupervisor : st.supervisor = .empty)
    (h : st.compileRunners c = .ok a) : a.ProcessesMade st.services c := by
  obtain ⟨ports, -, hc⟩ := compileRunners_eq_ok h
  have hstart : ProcessesMade { st with ports } st.services c := by
    intro n e he
    rw [hsupervisor] at he
    cases he
  exact foldlM_induction (P := fun a => a.ProcessesMade st.services c) hstart
    (fun x hx a a' ha hstep => ha.compileService (Registry.get?_eq_some_iff.2 hx) hstep) hc

/-- All services of a state are compiled, and each that runs on the workstation has the port that it
declares. -/
structure Settled (st : BuildState) (c : Context) : Prop where
  coherent : st.Coherent c
  tells : ∀ n s, st.services.get? n = some s → st.Tells n
  declares : DeclarePorts st.services c.mode
  ports : st.PortsTold st.services c.mode []
  containers : st.ContainersMade st.services c
  processes : st.ProcessesMade st.services c
  volumes : st.VolumesTold st.services c.mode
  mock : st.MockTold st.services c.mode

theorem Settled.endpoint_of_hosts (h : st.Settled c) {r : Runner}
    (hh : Hosts st.services c.mode n s r) (hp : r.declaredPort = some p) :
    st.Places c n s r ⟨r.protocol, p⟩ ∧
      st.endpoints.get? n = some (.onWorkstation ⟨r.protocol, p⟩ (r.scheme s.origin)) := by
  obtain ⟨-, ⟨protocol, port⟩, hb, he⟩ :=
    h.coherent.endpoint_of_here hh.service (h.tells n s hh.service) hh.stands
  obtain rfl : protocol = r.protocol := hb.protocol
  obtain rfl : port = p := hb.declared p hp
  exact ⟨hb, he⟩

theorem Settled.failure_iff (h : st.Settled c) {why : Unresolved} :
    st.failures.get? n = some why ↔
      ∃ s, st.services.get? n = some s ∧ s.standing n c.mode = some (.nowhere why) := by
  constructor
  · exact h.coherent.skipped n why
  · rintro ⟨s, hs, hstands⟩
    exact (h.coherent.failure_of_nowhere hs (h.tells n s hs) hstands).1

theorem Settled.endpoint_iff (h : st.Settled c) {e : Endpoint} :
    st.endpoints.get? n = some e ↔
      (∃ s url, st.services.get? n = some s ∧ s.standing n c.mode = some (.elsewhere url) ∧
        e = .remote url) ∨
      ∃ s r p, Hosts st.services c.mode n s r ∧ r.declaredPort = some p ∧
        e = .onWorkstation ⟨r.protocol, p⟩ (r.scheme s.origin) := by
  constructor
  · intro he
    rcases e with ⟨b, scheme⟩ | url
    · obtain ⟨s, r, hh, -⟩ := h.coherent.placed n b scheme he
      obtain ⟨p, hp⟩ := h.declares n s r hh
      have hend := (h.endpoint_of_hosts hh hp).2
      exact .inr ⟨s, r, p, hh, hp, Option.some.inj (he.symm.trans hend)⟩
    · obtain ⟨s, hs, hstands⟩ := h.coherent.deployed n url he
      exact .inl ⟨s, url, hs, hstands, rfl⟩
  · rintro (⟨s, url, hs, hstands, rfl⟩ | ⟨s, r, p, hh, hp, rfl⟩)
    · exact (h.coherent.endpoint_of_elsewhere hs (h.tells n s hs) hstands).2
    · exact (h.endpoint_of_hosts hh hp).2

theorem Settled.owner_iff (h : st.Settled c) :
    st.ports.owner? p = some n ↔
      ∃ s r, Hosts st.services c.mode n s r ∧ r.declaredPort = some p := by
  constructor
  · intro ho
    rcases h.ports.owned p n ho with hd | ⟨b, scheme, he, hb⟩
    · exact hd
    · obtain ⟨s, r, hh, -, hplaces⟩ := h.coherent.placed n b scheme he
      obtain ⟨q, hq⟩ := h.declares n s r hh
      exact ⟨s, r, hh, by rw [hq, ← hb, hplaces.declared q hq]⟩
  · rintro ⟨s, r, hh, hp⟩
    exact (h.endpoint_of_hosts hh hp).1.owner

theorem Settled.container_iff (h : st.Settled c) {e : ComposeService} :
    st.compose.services.get? n = some e ↔ ∃ s r p, Hosts st.services c.mode n s r ∧
      r.declaredPort = some p ∧ r.container? s.origin p = some e := by
  refine h.containers.get?_iff h.declares fun s r p hh hp hr => ?_
  have hpublished := keys_of_publishedOn (h.endpoint_of_hosts hh hp).1.published
  rwa [if_pos (Runner.isContainer_of_container? hr)] at hpublished

theorem Settled.process_iff (h : st.Settled c) {e : SupervisedProcess} :
    st.supervisor.processes.get? n = some e ↔ ∃ s r p, Hosts st.services c.mode n s r ∧
      r.declaredPort = some p ∧ r.process? c p = some e := by
  refine h.processes.get?_iff h.declares fun s r p hh hp hr => ?_
  have hpublished := keys_of_publishedOn (h.endpoint_of_hosts hh hp).1.published
  rwa [Runner.isContainer_of_process? hr, if_neg Bool.false_ne_true] at hpublished

theorem Settled.route_iff (h : st.Settled c) {x : Route} :
    x ∈ st.routes.routes ↔ ∃ s r p i, Hosts st.services c.mode x.service s r ∧
      r.declaredPort = some p ∧ s.ingress = some i ∧
        x = i.route x.service ⟨r.protocol, p⟩ := by
  constructor
  · intro hx
    obtain ⟨s, i, scheme, hs, hi, hk, he⟩ := h.coherent.routed x hx
    obtain ⟨r, hstands, -⟩ := h.coherent.here_of_endpoint hs he
    obtain ⟨p, hp⟩ := h.declares _ s r ⟨hs, hstands⟩
    have hend := he.symm.trans (h.endpoint_of_hosts ⟨hs, hstands⟩ hp).2
    simp only [Option.some.injEq, Endpoint.onWorkstation.injEq] at hend
    refine ⟨s, r, p, i, ⟨hs, hstands⟩, hp, hi, ?_⟩
    rw [Ingress.route, ← hk, ← hend.1]
    rfl
  · rintro ⟨s, r, p, i, hh, hp, hi, hx⟩
    obtain ⟨hplaces, he⟩ := h.endpoint_of_hosts hh hp
    have hroutes := h.coherent.routes_eq hh.service
    rw [hi, he] at hroutes
    have hmem : x ∈ st.routes.routes.filter (·.service == x.service) := by
      rw [hroutes]
      exact List.mem_singleton.2 hx
    exact (List.mem_filter.1 hmem).1

theorem Settled.mock_iff (h : st.Settled c) :
    st.requiresMockServer = true ↔ ∃ n s r, Hosts st.services c.mode n s (.mock r) := by
  refine h.mock.trans ⟨?_, ?_⟩
  · rintro ⟨n, s, r, hh, -⟩
    exact ⟨n, s, r, hh⟩
  · rintro ⟨n, s, r, hh⟩
    obtain ⟨p, hp⟩ := h.declares n s _ hh
    exact ⟨n, s, r, hh, Registry.mem_keys_iff.2 ⟨_, (h.endpoint_of_hosts hh hp).2⟩⟩

/-- The services of a state that is built are settled. -/
theorem settled_of_build {g : Graph} {offers : List Port} {t : FileTree}
    (hports : ∀ services, g.dependencies.foldlM expandDependency g.services = .ok services →
      DeclarePorts services c.mode)
    (h : (build c g offers [.expandDependencies, .validateIngress, .compileRunners] t).state =
      .ok st) :
    g.dependencies.foldlM expandDependency g.services = .ok st.services ∧ st.Settled c := by
  have hcoherent := coherent_build h
  obtain ⟨services, compiled, t', hd, hcompiled, rfl, hend⟩ := compiled_of_build h
  cases hend
  have htold := portsTold_compileRunners (fun _ => rfl) (fun _ => rfl) hcompiled
  have hcontainers := containersMade_compileRunners rfl hcompiled
  have hprocesses := processesMade_compileRunners rfl hcompiled
  have hvolumes := volumesTold_compileRunners rfl hcompiled
  have hmock := mockTold_compileRunners rfl rfl hcompiled
  exact ⟨hd, hcoherent, fun n s hs => tells_compileRunners hcompiled hs, hports _ hd, htold,
    hcontainers, hprocesses, hvolumes, hmock⟩

end BuildState

end LocalTopology
