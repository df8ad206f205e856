import LocalTopology.Proofs.Probing
import LocalTopology.Proofs.Traces
import LocalTopology.Session.Basic

/-!
# Who is on the port of the proxy

The ports that a build holds are those of the services on the workstation that declare none
(`BuildState.heldTold_compileRunners`), so every port of an endpoint is declared by the service or
held (`Topology.usesPort_iff_of_compile`). A port that is held cannot be given to the proxy. A port
that is declared can, since nobody listens on it before the tools are started, and then the proxy is
where the service should be.
-/

namespace LocalTopology

/-! ## Held ports -/

theorem held_claimDeclared {l l' : PortLedger} {mode : Mode} {name : String} {s : Service}
    (h : claimDeclared mode l name s = .ok l') : l'.held = l.held := by
  unfold claimDeclared at h
  rcases ha : activeRunner mode name s with e | r <;> simp only [ha] at h
  · cases h
    rfl
  · rcases hd : r.declaredPort with _ | p <;> simp only [hd] at h
    · cases h
      rfl
    · rcases hc : l.claim name p with fault | lc <;> rw [hc] at h <;> cases h
      exact PortLedger.held_claim hc

namespace BuildState

variable {services : Registry Service} {st a a' : BuildState} {c : Context} {name n : String}
  {s : Service} {p : Port}

/-- A service on the workstation that declares no port is reached on one. -/
def Draws (a : BuildState) (services : Registry Service) (mode : Mode) (n : String) (p : Port) :
    Prop :=
  ∃ s r b scheme, Hosts services mode n s r ∧ r.declaredPort = none ∧
    a.endpoints.get? n = some (.onWorkstation b scheme) ∧ b.port = p

/-- The ports that are held are those of the services that declare none. -/
def HeldTold (a : BuildState) (services : Registry Service) (mode : Mode) : Prop :=
  ∀ p, p ∈ a.ports.held ↔ ∃ n, a.Draws services mode n p

theorem draws_put_of_ne {mode : Mode} {e : Endpoint}
    (he : a'.endpoints = a.endpoints.put name e) (hn : n ≠ name) :
    a'.Draws services mode n p ↔ a.Draws services mode n p := by
  simp only [Draws, he, Registry.get?_put, hn.symm, if_false]

theorem draws_put {mode : Mode} {e : Endpoint} {r : Runner}
    (he : a'.endpoints = a.endpoints.put name e) (hh : Hosts services mode name s r) :
    a'.Draws services mode name p ↔
      r.declaredPort = none ∧ ∃ b scheme, e = .onWorkstation b scheme ∧ b.port = p := by
  simp only [Draws, he, Registry.get?_put, if_true, Option.some.injEq]
  constructor
  · rintro ⟨s', r', b, scheme, hh', hd, rfl, hp⟩
    cases hh.service.symm.trans hh'.service
    cases hh.stands.symm.trans hh'.stands
    exact ⟨hd, b, scheme, rfl, hp⟩
  · rintro ⟨hd, b, scheme, rfl, hp⟩
    exact ⟨s, r, b, scheme, hh, hd, rfl, hp⟩

/-- Compiling a service for the first time makes its port held if the service declares none. -/
theorem HeldTold.compileService (h : a.HeldTold services c.mode)
    (hs : services.get? name = some s) (hnew : a.endpoints.get? name = none)
    (hc : LocalTopology.compileService c a name s = .ok a') : a'.HeldTold services c.mode := by
  have hne : ∀ {n p}, a.Draws services c.mode n p → n ≠ name := by
    rintro n p ⟨-, -, b, scheme, -, -, he, -⟩ rfl
    cases hnew.symm.trans he
  rcases compileService_cases hc with ⟨why, -, rfl⟩ | ⟨url, hstands, rfl⟩ |
    ⟨r, q, ports, routes, hstands, ho, -, rfl⟩
  · exact h
  · intro p
    rw [h p]
    refine exists_congr fun n => ?_
    by_cases hn : n = name
    · subst hn
      refine iff_of_false (fun hd => hne hd rfl) ?_
      rintro ⟨s', r, -, -, hh, -, -, -⟩
      cases hs.symm.trans hh.service
      cases hstands.symm.trans hh.stands
    · exact (draws_put_of_ne rfl hn).symm
  · have hself : ∀ p, Draws { r.enter c name s.origin q { a with ports } with
        routes
        endpoints := a.endpoints.put name (.onWorkstation ⟨r.protocol, q⟩ (r.scheme s.origin)) }
        services c.mode name p ↔ r.declaredPort = none ∧ p = q := by
      intro p
      rw [draws_put rfl ⟨hs, hstands⟩]
      refine and_congr_right fun _ => ⟨?_, ?_⟩
      · rintro ⟨b, scheme, hb, rfl⟩
        cases hb
        rfl
      · rintro rfl
        exact ⟨_, _, rfl, rfl⟩
    intro p
    simp only [Runner.ports_enter, PortLedger.mem_held_obtain ho, h p]
    constructor
    · rintro (⟨n, hd⟩ | hd)
      · exact ⟨n, (draws_put_of_ne rfl (hne hd)).2 hd⟩
      · exact ⟨name, (hself p).2 hd⟩
    · rintro ⟨n, hd⟩
      by_cases hn : n = name
      · subst hn
        exact .inr ((hself p).1 hd)
      · exact .inl ⟨n, (draws_put_of_ne rfl hn).1 hd⟩

/-- Where nothing has been compiled before, the ports that are held in the end are those of the
services that declare none. -/
theorem heldTold_compileRunners (hports : ∀ p, st.ports.owner? p = none)
    (hheld : st.ports.held = []) (hendpoints : ∀ n, st.endpoints.get? n = none)
    (h : st.compileRunners c = .ok a) : a.HeldTold st.services c.mode := by
  obtain ⟨ports, hp, hc⟩ := compileRunners_eq_ok h
  have hnone : ports.held = [] :=
    foldlM_induction (P := fun l => l.held = []) hheld
      (fun _ _ _ _ hl hstep => (held_claimDeclared hstep).trans hl) hp
  have hstart : HeldTold { st with ports } st.services c.mode := by
    refine fun p => iff_of_false (by simp [hnone]) ?_
    rintro ⟨n, s, r, b, scheme, -, -, he, -⟩
    cases (hendpoints n).symm.trans he
  -- The services that are still to come have no endpoint, so none is compiled a second time.
  have hend := foldlM_remaining (P := fun rest a => a.PortsTold st.services c.mode rest ∧
    (∀ e ∈ rest, st.services.get? e.1 = some e.2) ∧ a.HeldTold st.services c.mode)
    (fun e rest a a' ⟨htold, hrest, hheld⟩ hstep => ⟨htold.compileService hstep,
      fun d hd => hrest d (List.mem_cons_of_mem _ hd),
      hheld.compileService (hrest e List.mem_cons_self) (htold.fresh e List.mem_cons_self) hstep⟩)
    ⟨portsTold_of_claims hports hendpoints hp, fun e => Registry.get?_eq_some_iff.2, hstart⟩ hc
  exact hend.2.2

end BuildState

/-! ## Ports of endpoints -/

/-- A service on the workstation is reached on a port. -/
def Topology.UsesPort (t : Topology) (p : Port) : Prop :=
  ∃ n b scheme, (n, .onWorkstation b scheme) ∈ t.addresses.workstationEndpoints ∧ b.port = p

/-- The active runner of a service, or of one that provides a dependency, declares a port. -/
def Graph.Declares (g : Graph) (mode : Mode) (p : Port) : Prop :=
  ∃ services n s r, g.dependencies.foldlM expandDependency g.services = .ok services ∧
    services.get? n = some s ∧ activeRunner mode n s = .ok r ∧ r.declaredPort = some p

theorem BuildState.Coherent.usesPort_iff {st : BuildState} {c : Context} (h : st.Coherent c)
    (htells : ∀ n s, st.services.get? n = some s → st.Tells n) {g : Graph} {p : Port} :
    (Topology.ofState c g st).UsesPort p ↔
      ∃ n b scheme, st.endpoints.get? n = some (.onWorkstation b scheme) ∧ b.port = p := by
  have hlisted : ∀ n b scheme, (n, .onWorkstation b scheme) ∈
      (AddressBook.ofState st c.proxyPort).workstationEndpoints ↔
        st.endpoints.get? n = some (.onWorkstation b scheme) := by
    intro n b scheme
    rw [AddressBook.mem_workstationEndpoints_iff]
    constructor
    · rintro ⟨i, hfind, -⟩
      obtain ⟨s, -, he, -⟩ := AddressBook.find_ofState_eq_ok hfind
      exact he
    · intro he
      obtain ⟨s, r, hh, -⟩ := h.placed n b scheme he
      obtain ⟨b', -, hfind⟩ :=
        AddressBook.find_of_here h hh.service (htells n s hh.service) hh.stands c.proxyPort
      obtain ⟨-, -, he', -⟩ := AddressBook.find_ofState_eq_ok hfind
      cases he.symm.trans he'
      exact ⟨_, hfind, rfl⟩
  simp only [Topology.UsesPort, Topology.ofState, hlisted]

namespace Topology

variable {g : Graph} {c : Context} {offers : List Port} {t : FileTree} {topology : Topology}

/-- A graph that compiles is known by a state that tells who is on the ports that it holds. -/
theorem exists_heldTold_of_compile (h : (g.compile c offers t).1 = .ok topology) :
    ∃ st : BuildState, topology = ofState c g st ∧ st.Coherent c ∧
      g.dependencies.foldlM expandDependency g.services = .ok st.services ∧
        (∀ n s, st.services.get? n = some s → st.Tells n) ∧
          st.HeldTold st.services c.mode := by
  obtain ⟨st, written, hb, rfl⟩ := Graph.exists_build_of_compile h
  have hcoherent := (coherent_build hb).withManifests st.manifests written
  obtain ⟨services, compiled, t', hd, hcompiled, rfl, hend⟩ := BuildState.compiled_of_build hb
  cases hend
  have hheld := BuildState.heldTold_compileRunners (fun _ => rfl) rfl (fun _ => rfl) hcompiled
  exact ⟨{ st with written }, rfl, hcoherent, hd,
    fun n s hs => BuildState.tells_compileRunners hcompiled hs, hheld⟩

theorem bindProxy_eq_some {bind : Port → Except SystemFault Port} {wanted q : Port}
    (h : topology.bindProxy bind wanted = .ok (some q)) : bind wanted = .ok q := by
  unfold bindProxy at h
  split_ifs at h
  · cases h
  · rcases hq : bind wanted with fault | p <;> rw [hq] at h <;> cases h
    rfl

/-- The ports of the services on the workstation are those that are declared and those that are
held, and every route leads to one of them. So if the proxy gets a port that nothing else has taken,
a service is reached there if and only if one declares the port. -/
theorem usesPort_iff_of_compile (h : (g.compile c offers t).1 = .ok topology) :
    (∀ p, topology.UsesPort p ↔ g.Declares c.mode p ∨ p ∈ topology.ports.held) ∧
      (∀ x ∈ topology.routes.routes, topology.UsesPort x.backend.port) ∧
      ∀ (bind : Port → Except SystemFault Port) (q : Port),
        (∀ wanted p, bind wanted = .ok p → topology.ports.isTakable p = true) →
          topology.bindProxy bind c.proxyPort = .ok (some q) →
            (topology.UsesPort q ↔ g.Declares c.mode q) := by
  obtain ⟨st, rfl, hcoherent, hd, htells, hheld⟩ := exists_heldTold_of_compile h
  have hiff : ∀ p, (ofState c g st).UsesPort p ↔ g.Declares c.mode p ∨ p ∈ st.ports.held := by
    intro p
    rw [hcoherent.usesPort_iff htells, hheld p]
    constructor
    · rintro ⟨n, b, scheme, he, rfl⟩
      obtain ⟨s, r, hh, -, hplaces⟩ := hcoherent.placed n b scheme he
      rcases hr : r.declaredPort with _ | q
      · exact .inr ⟨n, s, r, b, scheme, hh, hr, he, rfl⟩
      · rw [hplaces.declared q hr]
        have hactive := (activeRunner_of_standing hh.stands).1
        exact .inl ⟨st.services, n, s, r, hd, hh.service, hactive, hr⟩
    · rintro (⟨services, n, s, r, hd', hs, ha, hr⟩ | ⟨n, s, r, b, scheme, -, -, he, hp⟩)
      · cases hd.symm.trans hd'
        have hstands := standing_of_activeRunner ha (Runner.isRemote_of_declaredPort hr)
        obtain ⟨-, b, hplaces, he⟩ := hcoherent.endpoint_of_here hs (htells n s hs) hstands
        exact ⟨n, b, _, he, hplaces.declared p hr⟩
      · exact ⟨n, b, scheme, he, hp⟩
  refine ⟨hiff, fun x hx => ?_, fun bind q hbind hproxy => ?_⟩
  · obtain ⟨s, i, scheme, -, -, -, he⟩ := hcoherent.routed x hx
    exact (hcoherent.usesPort_iff htells).2 ⟨x.service, x.backend, scheme, he, rfl⟩
  · have htakable := hbind _ _ (bindProxy_eq_some hproxy)
    have hfree : q ∉ st.ports.held := by simpa [PortLedger.isTakable, ofState] using htakable
    rw [hiff]
    exact or_iff_left hfree

/-- A service that declares the port of the proxy beside one whose port is held. -/
theorem usesPort_iff_of_compile_taken :
    let c : Context := { workDirectory := "/work", home := ⟨"/home"⟩, proxyPort := 1347 }
    let g : Graph :=
      { name := "shop",
        services := .ofList
          [("api", { ingress := some ⟨"api.workleap.localhost", "/"⟩,
                     runners := [.executable { command := "api", port := some 1347 }] }),
            ("web", { runners := [.project { project := "web" }] })] }
    let bind : Port → Except SystemFault Port := fun p => if p = 5001 then .error ⟨98⟩ else .ok p
    ∃ topology, (g.compile c [5001] {}).1 = .ok topology ∧
      topology.bindProxy bind c.proxyPort = .ok (some 1347) ∧ topology.UsesPort 5001 ∧
        topology.UsesPort 1347 := by
  intro c g bind
  obtain ⟨topology, h, hheld, hproxy⟩ : ∃ topology, (g.compile c [5001] {}).1 = .ok topology ∧
      topology.ports.held = [5001] ∧ topology.bindProxy bind c.proxyPort = .ok (some 1347) :=
    ⟨_, rfl, rfl, rfl⟩
  have hbind : ∀ wanted p, bind wanted = .ok p → topology.ports.isTakable p = true := by
    intro wanted p hp
    unfold bind at hp
    split_ifs at hp with hwanted
    cases hp
    simpa [PortLedger.isTakable, hheld] using hwanted
  have hdeclares : g.Declares c.mode 1347 := ⟨_, "api", _, _, rfl, rfl, rfl, rfl⟩
  have hcompiled := usesPort_iff_of_compile h
  exact ⟨topology, h, hproxy, (hcompiled.1 5001).2 (.inr (by simp [hheld])),
    (hcompiled.2.2 bind 1347 hbind hproxy).2 hdeclares⟩

/-- A service may declare the port of the proxy. The graph is compiled all the same, and its route
leads the proxy to itself. -/
theorem exists_usesPort_proxyPort :
    let c : Context := { workDirectory := "/work", home := ⟨"/home"⟩, proxyPort := 1347 }
    let g : Graph :=
      { name := "shop",
        services := .ofList
          [("api", { ingress := some ⟨"api.workleap.localhost", "/"⟩,
                     runners := [.executable { command := "api", port := some 1347 }] })] }
    c.proxyPort ≠ 0 ∧ ∃ topology, (g.compile c [] {}).1 = .ok topology ∧
      topology.routes.isEmpty = false ∧ topology.UsesPort c.proxyPort ∧
        (topology.routes.resolve "api.workleap.localhost:1347" "/").map (·.backend) =
          some ⟨.http, c.proxyPort⟩ := by
  intro c g
  refine ⟨by decide, _, rfl, rfl, ⟨"api", ⟨.http, 1347⟩, "http", ?_, rfl⟩, ?_⟩
  · decide
  · decide

end Topology

end LocalTopology
