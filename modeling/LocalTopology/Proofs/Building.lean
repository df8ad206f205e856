import LocalTopology.Proofs.Compiling
import LocalTopology.Proofs.Expanding
import LocalTopology.Proofs.Loops

/-!
# What holds in every state of a build

A state is coherent when each endpoint, each route and each recorded failure belongs to a service
that stands that way in the mode of the build, and a service on the workstation has the port of its
endpoint everywhere. Every step keeps a coherent state coherent (`Coherent.run`), so all states that
builds reach are (`coherent_build`), whatever steps they take and however often.
-/

namespace LocalTopology

theorem eq_ok_of_toOption {ε α : Type} {x : Except ε α} {a : α} (h : x.toOption = some a) :
    x = .ok a := by
  cases x <;> cases h
  rfl

/-- The state and the files that a build has reached. -/
def BuildOutcome.reached (o : BuildOutcome) : Except Error BuildState × FileTree :=
  (o.state, o.files)

@[simp]
theorem BuildOutcome.reached_fst (o : BuildOutcome) : o.reached.1 = o.state := rfl

/-! ## Coherent states -/

/-- A registered service runs on the workstation by one of its runners. -/
structure Hosts (services : Registry Service) (mode : Mode) (name : String) (s : Service)
    (r : Runner) : Prop where
  service : services.get? name = some s
  stands : s.standing name mode = some (.here r)

namespace BuildState

/-- In all parts of a state, a service is what its runner makes of it on a backend. -/
structure Places (st : BuildState) (c : Context) (name : String) (s : Service) (r : Runner)
    (b : Backend) : Prop where
  protocol : b.protocol = r.protocol
  owner : st.ports.owner? b.port = some name
  declared : ∀ p, r.declaredPort = some p → b.port = p
  published : r.PublishedOn c st name b
  routed : ∀ i ∈ s.ingress, ∃ x ∈ st.routes.routes, x.service = name ∧ x.backend = b

/-- A service keeps its place as long as its port, entries and routes stay. -/
theorem Places.congr {st st' : BuildState} {c : Context} {name : String} {s : Service} {r : Runner}
    {b : Backend} (h : st.Places c name s r b) (hp : st.ports.Keeps st'.ports)
    (hc : st'.compose.services.get? name = st.compose.services.get? name)
    (hs : st'.supervisor.processes.get? name = st.supervisor.processes.get? name)
    (hr : ∀ x ∈ st.routes.routes, x.service = name → x ∈ st'.routes.routes) :
    st'.Places c name s r b where
  protocol := h.protocol
  owner := hp _ _ h.owner
  declared := h.declared
  published := h.published.congr hc hs
  routed i hi := by
    obtain ⟨x, hx, hxs, hxb⟩ := h.routed i hi
    exact ⟨x, hr x hx hxs, hxs, hxb⟩

/-- What a state has made belongs to services that stand that way in the mode. -/
structure Coherent (st : BuildState) (c : Context) : Prop where
  wellFormed : st.routes.WellFormed
  routed : ∀ x ∈ st.routes.routes, ∃ s i scheme, st.services.get? x.service = some s ∧
    s.ingress = some i ∧ x.key = i.key ∧
      st.endpoints.get? x.service = some (.onWorkstation x.backend scheme)
  placed : ∀ name b scheme, st.endpoints.get? name = some (.onWorkstation b scheme) →
    ∃ s r, Hosts st.services c.mode name s r ∧ scheme = r.scheme s.origin ∧
      st.Places c name s r b
  deployed : ∀ name url, st.endpoints.get? name = some (.remote url) →
    ∃ s, st.services.get? name = some s ∧ s.standing name c.mode = some (.elsewhere url)
  skipped : ∀ name why, st.failures.get? name = some why →
    ∃ s, st.services.get? name = some s ∧ s.standing name c.mode = some (.nowhere why)
  owned : ∀ p name, st.ports.owner? p = some name → ∃ s r, Hosts st.services c.mode name s r
  contained : ∀ name e, st.compose.services.get? name = some e →
    ∃ s r, Hosts st.services c.mode name s r ∧ r.isContainer = true
  supervised : ∀ name e, st.supervisor.processes.get? name = some e →
    ∃ s r, Hosts st.services c.mode name s r ∧ r.isContainer = false

variable {st : BuildState} {c : Context}

theorem coherent_ofGraph (g : Graph) (offers : List Port) (c : Context) :
    (ofGraph g offers).Coherent c where
  wellFormed := DispatchTable.wellFormed_empty
  routed _ hx := by cases hx
  placed _ _ _ h := by cases h
  deployed _ _ h := by cases h
  skipped _ _ h := by cases h
  owned _ _ h := by cases h
  contained _ _ h := by cases h
  supervised _ _ h := by cases h

theorem Coherent.here_of_endpoint (h : st.Coherent c) {name : String} {s : Service} {b : Backend}
    {scheme : String} (hs : st.services.get? name = some s)
    (he : st.endpoints.get? name = some (.onWorkstation b scheme)) :
    ∃ r, s.standing name c.mode = some (.here r) ∧ scheme = r.scheme s.origin ∧
      st.Places c name s r b := by
  obtain ⟨s', r, hh, hscheme, hr⟩ := h.placed name b scheme he
  cases hs.symm.trans hh.service
  exact ⟨r, hh.stands, hscheme, hr⟩

theorem Coherent.elsewhere_of_endpoint (h : st.Coherent c) {name url : String} {s : Service}
    (hs : st.services.get? name = some s) (he : st.endpoints.get? name = some (.remote url)) :
    s.standing name c.mode = some (.elsewhere url) := by
  obtain ⟨s', hs', hstands⟩ := h.deployed name url he
  cases hs.symm.trans hs'
  exact hstands

theorem Coherent.nowhere_of_failure (h : st.Coherent c) {name : String} {s : Service}
    {why : Unresolved} (hs : st.services.get? name = some s)
    (hf : st.failures.get? name = some why) : s.standing name c.mode = some (.nowhere why) := by
  obtain ⟨s', hs', hstands⟩ := h.skipped name why hf
  cases hs.symm.trans hs'
  exact hstands

theorem Coherent.withServices (h : st.Coherent c) {services : Registry Service}
    (hs : ∀ n s, st.services.get? n = some s → services.get? n = some s) :
    { st with services }.Coherent c := by
  have hhosts : ∀ {n s r}, Hosts st.services c.mode n s r → Hosts services c.mode n s r :=
    fun hh => ⟨hs _ _ hh.service, hh.stands⟩
  refine ⟨h.wellFormed, ?_, ?_, ?_, ?_, ?_, ?_, ?_⟩
  · intro x hx
    obtain ⟨s, i, scheme, hget, hrest⟩ := h.routed x hx
    exact ⟨s, i, scheme, hs _ _ hget, hrest⟩
  · intro name b scheme he
    obtain ⟨s, r, hh, hscheme, hr⟩ := h.placed name b scheme he
    exact ⟨s, r, hhosts hh, hscheme, hr.congr (.refl _) rfl rfl fun _ hx _ => hx⟩
  · intro name url he
    obtain ⟨s, hget, hstands⟩ := h.deployed name url he
    exact ⟨s, hs _ _ hget, hstands⟩
  · intro name why hf
    obtain ⟨s, hget, hstands⟩ := h.skipped name why hf
    exact ⟨s, hs _ _ hget, hstands⟩
  · intro p name ho
    obtain ⟨s, r, hh⟩ := h.owned p name ho
    exact ⟨s, r, hhosts hh⟩
  · intro name e he
    obtain ⟨s, r, hh, hr⟩ := h.contained name e he
    exact ⟨s, r, hhosts hh, hr⟩
  · intro name e he
    obtain ⟨s, r, hh, hr⟩ := h.supervised name e he
    exact ⟨s, r, hhosts hh, hr⟩

theorem Coherent.withPorts (h : st.Coherent c) {ports : PortLedger} (hp : st.ports.Keeps ports)
    (ho : ∀ p name, ports.owner? p = some name → ∃ s r, Hosts st.services c.mode name s r) :
    { st with ports }.Coherent c := by
  refine ⟨h.wellFormed, h.routed, ?_, h.deployed, h.skipped, ho, h.contained, h.supervised⟩
  intro name b scheme he
  obtain ⟨s, r, hh, hscheme, hr⟩ := h.placed name b scheme he
  exact ⟨s, r, hh, hscheme, hr.congr hp rfl rfl fun _ hx _ => hx⟩

theorem Coherent.withManifests (h : st.Coherent c) (manifests : Option Manifests)
    (written : Option WrittenManifests) : { st with manifests, written }.Coherent c := by
  refine ⟨h.wellFormed, h.routed, ?_, h.deployed, h.skipped, h.owned, h.contained, h.supervised⟩
  intro name b scheme he
  obtain ⟨s, r, hh, hscheme, hr⟩ := h.placed name b scheme he
  exact ⟨s, r, hh, hscheme, hr.congr (.refl _) rfl rfl fun _ hx _ => hx⟩

/-! ## Compiling -/

theorem Coherent.skip (h : st.Coherent c) {name : String} {s : Service} {why : Unresolved}
    (hget : st.services.get? name = some s)
    (hstands : s.standing name c.mode = some (.nowhere why)) :
    { st with failures := st.failures.put name why }.Coherent c := by
  refine ⟨h.wellFormed, h.routed, ?_, h.deployed, ?_, h.owned, h.contained, h.supervised⟩
  · intro n b scheme he
    obtain ⟨s, r, hh, hscheme, hr⟩ := h.placed n b scheme he
    exact ⟨s, r, hh, hscheme, hr.congr (.refl _) rfl rfl fun _ hx _ => hx⟩
  · intro n u hf
    rw [Registry.get?_put] at hf
    split_ifs at hf with hn
    · subst hn
      cases hf
      exact ⟨s, hget, hstands⟩
    · exact h.skipped n u hf

/-- A service that stands elsewhere has had neither a route nor an endpoint on the workstation. -/
theorem Coherent.deploy (h : st.Coherent c) {name : String} {s : Service} {url : String}
    (hget : st.services.get? name = some s)
    (hstands : s.standing name c.mode = some (.elsewhere url)) :
    { st with endpoints := st.endpoints.put name (.remote url) }.Coherent c := by
  have hnot : ∀ b scheme, st.endpoints.get? name ≠ some (.onWorkstation b scheme) := by
    intro b scheme he
    obtain ⟨r, hhere, -⟩ := h.here_of_endpoint hget he
    cases hstands.symm.trans hhere
  refine ⟨h.wellFormed, ?_, ?_, ?_, h.skipped, h.owned, h.contained, h.supervised⟩
  · intro x hx
    obtain ⟨s', i, scheme, hget', hi, hk, he⟩ := h.routed x hx
    refine ⟨s', i, scheme, hget', hi, hk, ?_⟩
    rw [Registry.get?_put, if_neg (fun hn => hnot _ _ (hn ▸ he)), he]
  · intro n b scheme he
    rw [Registry.get?_put] at he
    split_ifs at he with hn
    · cases he
    · obtain ⟨s', r, hh, hscheme, hr⟩ := h.placed n b scheme he
      exact ⟨s', r, hh, hscheme, hr.congr (.refl _) rfl rfl fun _ hx _ => hx⟩
  · intro n u he
    rw [Registry.get?_put] at he
    split_ifs at he with hn
    · subst hn
      cases he
      exact ⟨s, hget, hstands⟩
    · exact h.deployed n u he

/-! Whatever a service enters in a manifest stands under its own name. -/

theorem Coherent.contained_enter (h : st.Coherent c) {name : String} {s : Service} {r : Runner}
    (hh : Hosts st.services c.mode name s r) {ports : PortLedger} {p : Port} {n : String}
    {e : ComposeService} (he : (r.enter c name s.origin p
      { st with ports }).compose.services.get? n = some e) :
    ∃ s r, Hosts st.services c.mode n s r ∧ r.isContainer = true := by
  by_cases hn : name = n
  · subst hn
    rcases hr : r.isContainer with _ | _
    · rw [Runner.container_enter_of_eq_false _ _ _ _ _ _ hr] at he
      exact h.contained name e he
    · exact ⟨s, r, hh, hr⟩
  · rw [Runner.container_enter_of_ne _ _ _ _ _ _ hn] at he
    exact h.contained n e he

theorem Coherent.supervised_enter (h : st.Coherent c) {name : String} {s : Service} {r : Runner}
    (hh : Hosts st.services c.mode name s r) {ports : PortLedger} {p : Port} {n : String}
    {e : SupervisedProcess} (he : (r.enter c name s.origin p
      { st with ports }).supervisor.processes.get? n = some e) :
    ∃ s r, Hosts st.services c.mode n s r ∧ r.isContainer = false := by
  by_cases hn : name = n
  · subst hn
    rcases hr : r.isContainer with _ | _
    · exact ⟨s, r, hh, hr⟩
    · rw [Runner.process_enter_of_eq_true _ _ _ _ _ _ hr] at he
      exact h.supervised name e he
  · rw [Runner.process_enter_of_ne _ _ _ _ _ _ hn] at he
    exact h.supervised n e he

/-- A service that is compiled on the workstation takes a port that is not that of another, and the
route of its ingress takes the place of its own route only. -/
theorem Coherent.place (h : st.Coherent c) {name : String} {s : Service} {r : Runner} {p : Port}
    {ports : PortLedger} {routes : DispatchTable} (hh : Hosts st.services c.mode name s r)
    (hobtain : st.ports.obtain name r.declaredPort = .ok (p, ports))
    (hroutes : st.routes.withIngress name ⟨r.protocol, p⟩ s.ingress = .ok routes) :
    { r.enter c name s.origin p { st with ports } with
      routes
      endpoints := st.endpoints.put name
        (.onWorkstation ⟨r.protocol, p⟩ (r.scheme s.origin)) }.Coherent c := by
  obtain ⟨-, hlocal⟩ := activeRunner_of_standing hh.stands
  obtain ⟨hdeclared, hfree, howner⟩ := PortLedger.obtain_eq_ok hobtain
  obtain ⟨hw, hsame, hmem⟩ := DispatchTable.withIngress_eq_ok h.wellFormed hroutes
  have hkeeps := PortLedger.keeps_of_owner? hfree howner
  refine ⟨hw, ?_, ?_, ?_, ?_, ?_, ?_, ?_⟩
  · intro x hx
    simp only [Runner.services_enter]
    rcases (hmem x).1 hx with ⟨i, hi, rfl⟩ | ⟨hx, hk⟩
    · exact ⟨s, i, r.scheme s.origin, by simpa using hh.service, hi, by simp, by
        simp [Registry.get?_put]⟩
    · obtain ⟨s', i, scheme, hget', hi, hxk, he⟩ := h.routed x hx
      -- An old route of this service has the key of the new one.
      have hne : name ≠ x.service := by
        rintro rfl
        cases hh.service.symm.trans hget'
        exact hk i hi hxk
      exact ⟨s', i, scheme, hget', hi, hxk, by rw [Registry.get?_put, if_neg hne, he]⟩
  · intro n b scheme he
    simp only [Runner.services_enter]
    rw [Registry.get?_put] at he
    split_ifs at he with hn
    · subst hn
      cases he
      refine ⟨s, r, hh, rfl, rfl, ?_, ?_, ?_, ?_⟩
      · simp [howner]
      · exact hdeclared
      · exact (Runner.publishedOn_enter hlocal c name s.origin p _).congr rfl rfl
      · exact fun i hi => ⟨i.route name _, (hmem _).2 (.inl ⟨i, hi, rfl⟩), by simp, by simp⟩
    · obtain ⟨s', r', hh', hscheme, hr⟩ := h.placed n b scheme he
      refine ⟨s', r', hh', hscheme, hr.congr ?_ ?_ ?_ ?_⟩
      · simpa using hkeeps
      · exact Runner.container_enter_of_ne _ _ _ _ _ _ hn
      · exact Runner.process_enter_of_ne _ _ _ _ _ _ hn
      · -- A route with the key of the new one is a route of this service, not of the other.
        intro x hx hxs
        refine (hmem x).2 (.inr ⟨hx, fun i hi hk => hn ?_⟩)
        exact (hsame x hx i hi hk).symm.trans hxs
  · intro n u he
    rw [Registry.get?_put] at he
    split_ifs at he with hn
    · cases he
    · simpa using h.deployed n u he
  · intro n why hf
    simpa using h.skipped n why (by simpa using hf)
  · intro q n ho
    simp only [Runner.services_enter, Runner.ports_enter, howner] at ho ⊢
    split_ifs at ho with hq
    · cases ho
      exact ⟨s, r, hh⟩
    · exact h.owned q n ho
  · intro n e he
    rw [Runner.services_enter]
    exact h.contained_enter hh he
  · intro n e he
    rw [Runner.services_enter]
    exact h.supervised_enter hh he

theorem Coherent.compileService (h : st.Coherent c) {st' : BuildState} {name : String}
    {s : Service} (hget : st.services.get? name = some s)
    (hc : compileService c st name s = .ok st') :
    st'.Coherent c ∧ st'.services = st.services := by
  rcases compileService_cases hc with ⟨why, hs, rfl⟩ | ⟨url, hs, rfl⟩ |
    ⟨r, p, ports, routes, hs, ho, hr, rfl⟩
  · exact ⟨h.skip hget hs, rfl⟩
  · exact ⟨h.deploy hget hs, rfl⟩
  · exact ⟨h.place ⟨hget, hs⟩ ho hr, by simp⟩

/-- Claiming a declared port takes no port from its owner, and gives at most the declared one to a
service on the workstation. -/
theorem claimDeclared_eq_ok {l l' : PortLedger} {mode : Mode} {name : String} {s : Service}
    (h : claimDeclared mode l name s = .ok l') :
    l.Keeps l' ∧ ∀ q owner, l'.owner? q = some owner → l.owner? q = some owner ∨
      (owner = name ∧ ∃ r, s.standing name mode = some (.here r) ∧ r.declaredPort = some q) := by
  unfold claimDeclared at h
  rcases ha : activeRunner mode name s with e | r <;> simp only [ha] at h
  · cases h
    exact ⟨.refl l, fun _ _ ho => .inl ho⟩
  · rcases hd : r.declaredPort with _ | p <;> simp only [hd] at h
    · cases h
      exact ⟨.refl l, fun _ _ ho => .inl ho⟩
    · rcases hc : l.claim name p with fault | lc <;> rw [hc] at h <;> cases h
      obtain ⟨-, hown, howner⟩ := PortLedger.claim_eq_ok hc
      refine ⟨PortLedger.keeps_of_owner? hown howner, fun q owner ho => ?_⟩
      rw [howner] at ho
      split_ifs at ho with hq
      · cases ho
        exact .inr ⟨rfl, r, standing_of_activeRunner ha (Runner.isRemote_of_declaredPort hd),
          hq ▸ hd⟩
      · exact .inl ho

theorem compileRunners_eq_ok {st' : BuildState} (h : st.compileRunners c = .ok st') :
    ∃ ports,
      st.services.entries.foldlM (fun l e => claimDeclared c.mode l e.1 e.2) st.ports = .ok ports ∧
        st.services.entries.foldlM (fun st e => LocalTopology.compileService c st e.1 e.2)
          { st with ports } = .ok st' := by
  unfold compileRunners at h
  rcases hp : st.services.entries.foldlM (fun l e => claimDeclared c.mode l e.1 e.2) st.ports
    with e | ports <;> simp only [hp, bind, Except.bind] at h
  · cases h
  · exact ⟨ports, hp, h⟩

/-- Compiling keeps a state coherent and its services as they are. -/
theorem Coherent.compileRunners (h : st.Coherent c) {st' : BuildState}
    (hc : st.compileRunners c = .ok st') :
    st'.Coherent c ∧ st'.services = st.services := by
  obtain ⟨ports, hp, hc⟩ := compileRunners_eq_ok hc
  -- The claims go first: they take no port from its owner and give none to a service elsewhere.
  have hclaimed : st.ports.Keeps ports ∧
      ∀ q n, ports.owner? q = some n → ∃ s r, Hosts st.services c.mode n s r := by
    refine foldlM_induction (P := fun l => st.ports.Keeps l ∧ ∀ q n, l.owner? q = some n →
      ∃ s r, Hosts st.services c.mode n s r) ⟨.refl _, h.owned⟩ ?_ hp
    rintro ⟨name, s⟩ he l l' ⟨hk, ho⟩ hstep
    obtain ⟨hk', ho'⟩ := claimDeclared_eq_ok hstep
    refine ⟨hk.trans hk', fun q n hq => ?_⟩
    rcases ho' q n hq with hq | ⟨rfl, r, hr, -⟩
    · exact ho q n hq
    · exact ⟨s, r, Registry.get?_eq_some_iff.2 he, hr⟩
  refine foldlM_induction (P := fun a => a.Coherent c ∧ a.services = st.services)
    ⟨h.withPorts hclaimed.1 hclaimed.2, rfl⟩ ?_ hc
  rintro ⟨name, s⟩ he a a' ⟨ha, hs⟩ hstep
  have hget : a.services.get? name = some s := by
    rw [hs]
    exact Registry.get?_eq_some_iff.2 he
  obtain ⟨ha', hs'⟩ := ha.compileService hget hstep
  exact ⟨ha', hs'.trans hs⟩

/-- Compiling puts nothing into words and writes nothing. -/
theorem unwritten_compileRunners {st' : BuildState} (h : st.compileRunners c = .ok st') :
    st'.manifests = st.manifests ∧ st'.written = st.written := by
  obtain ⟨ports, -, hc⟩ := compileRunners_eq_ok h
  refine foldlM_induction (P := fun a => a.manifests = st.manifests ∧ a.written = st.written)
    ⟨rfl, rfl⟩ (fun _ _ a a' ha hstep => ?_) hc
  rcases compileService_cases hstep with ⟨why, -, rfl⟩ | ⟨url, -, rfl⟩ | ⟨r, p, _, _, -, -, -, rfl⟩
  · exact ha
  · exact ha
  · simpa using ha

/-- A state tells of a service where it is reached or why it is not. -/
def Tells (st : BuildState) (name : String) : Prop :=
  (st.failures.get? name).isSome = true ∨ (st.endpoints.get? name).isSome = true

/-- Compiling a service makes the state tell of it, and of all others as before. -/
theorem tells_compileService {st' : BuildState} {name : String} {s : Service}
    (h : LocalTopology.compileService c st name s = .ok st') :
    st'.Tells name ∧ ∀ other, st.Tells other → st'.Tells other := by
  have hput : ∀ {α : Type} {m : Registry α} {v : α} (other : String),
      (m.get? other).isSome = true → ((m.put name v).get? other).isSome = true := by
    intro α m v other hm
    rw [Registry.get?_put]
    split_ifs
    · rfl
    · exact hm
  rcases compileService_cases h with ⟨why, -, rfl⟩ | ⟨url, -, rfl⟩ | ⟨r, p, _, _, -, -, -, rfl⟩
  · exact ⟨.inl (by simp [Registry.get?_put]), fun other hd => hd.imp (hput other) id⟩
  · exact ⟨.inr (by simp [Registry.get?_put]), fun other hd => hd.imp id (hput other)⟩
  · refine ⟨.inr (by simp [Registry.get?_put]), fun other hd => hd.imp (fun hf => ?_) (hput other)⟩
    simpa using hf

theorem tells_compileRunners {st' : BuildState} (hc : st.compileRunners c = .ok st')
    {name : String} {s : Service} (hs : st.services.get? name = some s) : st'.Tells name := by
  obtain ⟨ports, -, hc⟩ := compileRunners_eq_ok hc
  exact foldlM_forall (Q := fun e a => a.Tells e.1) (fun _ _ _ _ h => (tells_compileService h).1)
    (fun _ _ e _ _ _ ht h => (tells_compileService h).2 e.1 ht) hc (name, s)
    (Registry.get?_eq_some_iff.1 hs)

/-- A coherent state that tells of a service tells how it stands. -/
theorem Coherent.exists_standing (h : st.Coherent c) {name : String} {s : Service}
    (hs : st.services.get? name = some s) (ht : st.Tells name) :
    ∃ x, s.standing name c.mode = some x := by
  rcases ht with hf | he
  · obtain ⟨why, hf⟩ := Option.isSome_iff_exists.1 hf
    exact ⟨_, h.nowhere_of_failure hs hf⟩
  · obtain ⟨⟨b, scheme⟩ | url, he⟩ := Option.isSome_iff_exists.1 he
    · obtain ⟨r, hstands, -⟩ := h.here_of_endpoint hs he
      exact ⟨_, hstands⟩
    · exact ⟨_, h.elsewhere_of_endpoint hs he⟩

theorem Coherent.failure_of_nowhere (h : st.Coherent c) {name : String} {s : Service}
    {why : Unresolved} (hs : st.services.get? name = some s) (ht : st.Tells name)
    (hstands : s.standing name c.mode = some (.nowhere why)) :
    st.failures.get? name = some why ∧ st.endpoints.get? name = none := by
  have hnone : st.endpoints.get? name = none := by
    rcases he : st.endpoints.get? name with _ | ⟨b, scheme⟩ | url
    · rfl
    · obtain ⟨r, hhere, -⟩ := h.here_of_endpoint hs he
      cases hstands.symm.trans hhere
    · cases hstands.symm.trans (h.elsewhere_of_endpoint hs he)
  refine ⟨?_, hnone⟩
  rcases hf : st.failures.get? name with _ | why'
  · simp [Tells, hf, hnone] at ht
  · cases hstands.symm.trans (h.nowhere_of_failure hs hf)
    rfl

theorem Coherent.endpoint_of_elsewhere (h : st.Coherent c) {name url : String} {s : Service}
    (hs : st.services.get? name = some s) (ht : st.Tells name)
    (hstands : s.standing name c.mode = some (.elsewhere url)) :
    st.failures.get? name = none ∧ st.endpoints.get? name = some (.remote url) := by
  rcases hf : st.failures.get? name with _ | why
  · refine ⟨rfl, ?_⟩
    rcases he : st.endpoints.get? name with _ | ⟨b, scheme⟩ | url'
    · simp [Tells, hf, he] at ht
    · obtain ⟨r, hhere, -⟩ := h.here_of_endpoint hs he
      cases hstands.symm.trans hhere
    · cases hstands.symm.trans (h.elsewhere_of_endpoint hs he)
      rfl
  · cases hstands.symm.trans (h.nowhere_of_failure hs hf)

theorem Coherent.endpoint_of_here (h : st.Coherent c) {name : String} {s : Service} {r : Runner}
    (hs : st.services.get? name = some s) (ht : st.Tells name)
    (hstands : s.standing name c.mode = some (.here r)) :
    st.failures.get? name = none ∧ ∃ b, st.Places c name s r b ∧
      st.endpoints.get? name = some (.onWorkstation b (r.scheme s.origin)) := by
  rcases hf : st.failures.get? name with _ | why
  · refine ⟨rfl, ?_⟩
    rcases he : st.endpoints.get? name with _ | ⟨b, scheme⟩ | url
    · simp [Tells, hf, he] at ht
    · obtain ⟨r', hhere, rfl, hb⟩ := h.here_of_endpoint hs he
      cases hstands.symm.trans hhere
      exact ⟨b, hb, rfl⟩
    · cases hstands.symm.trans (h.elsewhere_of_endpoint hs he)
  · cases hstands.symm.trans (h.nowhere_of_failure hs hf)

/-! ## Steps -/

theorem validateIngress_eq_ok {st' : BuildState} (h : st.validateIngress = .ok st') :
    st' = st := by
  unfold validateIngress at h
  split at h <;> cases h
  rfl

theorem writeManifests_eq_ok {t t' : FileTree} {st' : BuildState}
    (h : st.writeManifests c t = (.ok st', t')) :
    ∃ written, (Manifests.render st.compose st.supervisor).write c.home t = (.ok written, t') ∧
      st' = { st with
        manifests := some (.render st.compose st.supervisor)
        written := some written } := by
  unfold writeManifests at h
  extract_lets manifests at h
  rcases hw : manifests.write c.home t with ⟨fault | written, t₁⟩ <;> rw [hw] at h <;> cases h
  exact ⟨written, rfl, rfl⟩

theorem Coherent.run (h : st.Coherent c) {g : Graph} {t t' : FileTree} {st' : BuildState}
    {step : Step} (hr : step.run c g st t = (.ok st', t')) : st'.Coherent c := by
  cases step with
  | expandDependencies =>
    obtain ⟨services, hd, rfl⟩ := expandDependencies_eq_ok (congrArg Prod.fst hr)
    exact h.withServices fun _ _ hs => get?_expandedDependencies hd hs
  | validateIngress =>
    rw [validateIngress_eq_ok (congrArg Prod.fst hr)]
    exact h
  | compileRunners => exact (h.compileRunners (congrArg Prod.fst hr)).1
  | writeManifests =>
    rw [Step.run] at hr
    obtain ⟨written, -, rfl⟩ := writeManifests_eq_ok hr
    exact h.withManifests _ _

/-- Whether manifests are written makes no difference to what is compiled. -/
theorem compileRunners_withPersists (st : BuildState) (c : Context) (persists : Bool) :
    st.compileRunners { c with persists } = st.compileRunners c := by
  unfold compileRunners LocalTopology.compileService
  simp only [Runner.compile_withPersists]

theorem reached_runSteps_cons (g : Graph) (step : Step) (steps : List Step) (st : BuildState)
    (t : FileTree) : (runSteps c g (step :: steps) st t).reached =
      if step.needsFiles && !c.persists then (runSteps c g steps st t).reached
      else
        match step.run c g st t with
        | (.error e, t) => (.error (.inStep step.name e), t)
        | (.ok next, t) => (runSteps c g steps next t).reached := by
  rw [runSteps]
  split_ifs
  · rfl
  · rcases step.run c g st t with ⟨e | next, t'⟩ <;> rfl

/-- A run that succeeds takes its first step or skips it, and goes on. -/
theorem runSteps_cons_eq_ok {g : Graph} {st' : BuildState} {step : Step} {steps : List Step}
    {t : FileTree} (h : (runSteps c g (step :: steps) st t).state = .ok st') :
    (step.needsFiles = true ∧ (runSteps c g steps st t).state = .ok st') ∨
      ∃ next t', step.run c g st t = (.ok next, t') ∧
        (runSteps c g steps next t').state = .ok st' := by
  unfold runSteps at h
  split_ifs at h with hskip
  · simp only [Bool.and_eq_true] at hskip
    exact .inl ⟨hskip.1, h⟩
  · rcases hs : step.run c g st t with ⟨e | next, t'⟩ <;> rw [hs] at h
    · cases h
    · exact .inr ⟨next, t', rfl, h⟩

/-- The steps after others go on from the state and the files of these, if they succeed. -/
theorem reached_runSteps_append {g : Graph} {more : List Step} :
    ∀ (steps : List Step) (st : BuildState) (t : FileTree),
      (LocalTopology.runSteps c g (steps ++ more) st t).reached =
        match (LocalTopology.runSteps c g steps st t).reached with
        | (.error e, t) => (.error e, t)
        | (.ok st, t) => (LocalTopology.runSteps c g more st t).reached
  | [], _, _ => rfl
  | step :: steps, st, t => by
    rw [List.cons_append, reached_runSteps_cons, reached_runSteps_cons]
    split_ifs
    · exact reached_runSteps_append steps st t
    · rcases step.run c g st t with ⟨e | next, t'⟩
      · rfl
      · exact reached_runSteps_append steps next t'

/-- A step that needs no files changes none, and does the same whatever they are and whether or not
manifests are written to them. -/
theorem run_of_needsFiles_eq_false {g : Graph} {step : Step} (h : step.needsFiles = false)
    (persists : Bool) (t t' : FileTree) :
    step.run { c with persists } g st t' = ((step.run c g st t).1, t') := by
  cases step with
  | compileRunners => rw [Step.run, Step.run, compileRunners_withPersists]
  | writeManifests => cases h
  | _ => rfl

theorem reached_runSteps_of_needsFiles_eq_false {g : Graph} (persists : Bool) (t t' : FileTree) :
    ∀ {steps : List Step} (st : BuildState), (∀ step ∈ steps, step.needsFiles = false) →
      (LocalTopology.runSteps { c with persists } g steps st t').reached =
        ((LocalTopology.runSteps c g steps st t).state, t')
  | [], _, _ => rfl
  | step :: steps, st, h => by
    have hstep := h step List.mem_cons_self
    have hself : step.run c g st t = ((step.run c g st t).1, t) :=
      run_of_needsFiles_eq_false hstep c.persists t t
    have hskip : ∀ b : Bool, ¬ (step.needsFiles && !b) = true := by simp [hstep]
    rw [← BuildOutcome.reached_fst, reached_runSteps_cons, reached_runSteps_cons, if_neg (hskip _),
      if_neg (hskip _), run_of_needsFiles_eq_false hstep persists t t', hself]
    rcases (step.run c g st t).1 with e | next
    · rfl
    · exact reached_runSteps_of_needsFiles_eq_false persists t t' next fun step hs =>
        h step (List.mem_cons_of_mem _ hs)

/-- The steps up to compiling expand the dependencies of the graph and compile all services. -/
theorem compiled_of_build {g : Graph} {offers : List Port} {steps : List Step} {t : FileTree}
    {st' : BuildState} (h : (build c g offers
      (.expandDependencies :: .validateIngress :: .compileRunners :: steps) t).state = .ok st') :
    ∃ services st t', g.dependencies.foldlM expandDependency g.services = .ok services ∧
      BuildState.compileRunners { ofGraph g offers with services } c = .ok st ∧
        st.services = services ∧ (LocalTopology.runSteps c g steps st t').state = .ok st' := by
  rcases runSteps_cons_eq_ok h with ⟨hskip, -⟩ | ⟨st₁, t₁, h₁, hb₁⟩
  · cases hskip
  rcases runSteps_cons_eq_ok hb₁ with ⟨hskip, -⟩ | ⟨st₂, t₂, h₂, hb₂⟩
  · cases hskip
  rcases runSteps_cons_eq_ok hb₂ with ⟨hskip, -⟩ | ⟨st₃, t₃, h₃, hb₃⟩
  · cases hskip
  obtain ⟨services, hd, rfl⟩ := expandDependencies_eq_ok (congrArg Prod.fst h₁)
  obtain rfl := validateIngress_eq_ok (congrArg Prod.fst h₂)
  have hcompiled := congrArg Prod.fst h₃
  have hkept := (((coherent_ofGraph g offers c).run h₁).compileRunners hcompiled).2
  exact ⟨services, st₃, t₃, hd, hcompiled, hkept, hb₃⟩

/-- The steps up to compiling put nothing into words and write nothing. -/
theorem unwritten_of_build {g : Graph} {offers : List Port} {t : FileTree} {st' : BuildState}
    (h : (build c g offers [.expandDependencies, .validateIngress, .compileRunners] t).state =
      .ok st') : st'.manifests = none ∧ st'.written = none := by
  obtain ⟨services, st, t', -, hc, -, hend⟩ := compiled_of_build h
  cases hend
  exact unwritten_compileRunners hc

theorem Coherent.runSteps {g : Graph} {st' : BuildState} : ∀ {steps : List Step} {st : BuildState}
    {t : FileTree}, st.Coherent c → (runSteps c g steps st t).state = .ok st' → st'.Coherent c
  | [], _, _, h, hr => by
    cases hr
    exact h
  | _ :: _, _, _, h, hr => by
    rcases runSteps_cons_eq_ok hr with ⟨-, hr⟩ | ⟨next, t', hs, hr⟩
    · exact Coherent.runSteps h hr
    · exact Coherent.runSteps (h.run hs) hr

end BuildState

theorem coherent_build {c : Context} {g : Graph} {offers : List Port} {steps : List Step}
    {t : FileTree} {st : BuildState} (h : (build c g offers steps t).state = .ok st) :
    st.Coherent c :=
  BuildState.Coherent.runSteps (BuildState.coherent_ofGraph g offers c) h

/-- In every state that a build reaches, the port of a service on the workstation is the declared
one if its active runner declares one, is owned by the service, is named by its only entry in the
manifests and by its routes, and is neither the port of another service on the workstation nor
declared by one. -/
theorem port_of_build {c : Context} {g : Graph} {offers : List Port} {steps : List Step}
    {t : FileTree} {st : BuildState} {name : String} {b : Backend} {scheme : String}
    (h : (build c g offers steps t).state = .ok st)
    (he : st.endpoints.get? name = some (.onWorkstation b scheme)) :
    ∃ s r, st.services.get? name = some s ∧ activeRunner c.mode name s = .ok r ∧
      st.Places c name s r b ∧
      (st.compose.services.get? name = none ∨ st.supervisor.processes.get? name = none) ∧
      (∀ x ∈ st.routes.routes, x.service = name → x.backend = b) ∧
      ∀ other b' scheme', other ≠ name →
        st.endpoints.get? other = some (.onWorkstation b' scheme') →
          b'.port ≠ b.port ∧ ∀ s' r' p, st.services.get? other = some s' →
            activeRunner c.mode other s' = .ok r' → r'.declaredPort = some p → p ≠ b.port := by
  have hc := coherent_build h
  obtain ⟨s, r, hh, -, hr⟩ := hc.placed name b scheme he
  refine ⟨s, r, hh.service, (activeRunner_of_standing hh.stands).1, hr, ?_, ?_, ?_⟩
  · rcases hn : st.compose.services.get? name with _ | e
    · exact .inl rfl
    · rcases hm : st.supervisor.processes.get? name with _ | e'
      · exact .inr rfl
      · obtain ⟨s₁, r₁, hh₁, hr₁⟩ := hc.contained name e hn
        obtain ⟨s₂, r₂, hh₂, hr₂⟩ := hc.supervised name e' hm
        cases hh₁.service.symm.trans hh₂.service
        cases hh₁.stands.symm.trans hh₂.stands
        rw [hr₁] at hr₂
        cases hr₂
  · rintro x hx rfl
    obtain ⟨s', i, scheme', -, -, -, he'⟩ := hc.routed x hx
    cases he.symm.trans he'
    rfl
  · intro other b' scheme' hne he'
    obtain ⟨s', r', hh', -, hr'⟩ := hc.placed other b' scheme' he'
    have hports : b'.port ≠ b.port := by
      intro hp
      have howner := hr'.owner
      rw [hp, hr.owner] at howner
      cases howner
      exact hne rfl
    refine ⟨hports, fun s₁ r₁ p hs₁ ha₁ hp hpb => hports ?_⟩
    cases hh'.service.symm.trans hs₁
    cases (activeRunner_of_standing hh'.stands).1.symm.trans ha₁
    exact (hr'.declared p hp).trans hpb

/-- A project that is compiled twice moves from one offered port to another, past the declared port
of a container. -/
theorem port_of_build_twice :
    let c : Context := { workDirectory := "/work", home := ⟨"/home"⟩, proxyPort := 1347 }
    let g : Graph :=
      { name := "shop",
        services := .ofList
          [("api", { ingress := some ⟨"api.workleap.localhost", "/"⟩,
                     runners := [.project { project := "api" }] }),
            ("web", { runners :=
              [.container { image := "web", containerPort := 80, hostPort := some 8080 }] })] }
    ∃ st, (build c g [8080, 5001, 5002] [.compileRunners, .compileRunners] {}).state = .ok st ∧
      st.endpoints.get? "api" = some (.onWorkstation ⟨.http, 5002⟩ "http") ∧
        ∃ s r, st.services.get? "api" = some s ∧ activeRunner c.mode "api" s = .ok r ∧
          st.Places c "api" s r ⟨.http, 5002⟩ := by
  intro c g
  obtain ⟨st, h, he⟩ : ∃ st,
      (build c g [8080, 5001, 5002] [.compileRunners, .compileRunners] {}).state = .ok st ∧
        st.endpoints.get? "api" = some (.onWorkstation ⟨.http, 5002⟩ "http") :=
    ⟨_, rfl, by decide⟩
  obtain ⟨s, r, hs, ha, hp, -⟩ := port_of_build h he
  exact ⟨st, h, he, s, r, hs, ha, hp⟩

end LocalTopology
