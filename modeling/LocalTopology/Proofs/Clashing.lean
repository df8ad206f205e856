import LocalTopology.Proofs.Proxying
import LocalTopology.Proofs.Traces

/-!
# What keeps a graph from being compiled

A merged graph clashes in a mode when a declared service has the name of one that provides a
dependency, when the active runner of a service declares port zero or the port of another service,
or when two services on the workstation have ingresses of one host and path (`Graph.Clashes`). A
graph that clashes is never compiled (`not_clashes_of_build`). One that does not clash is, unless
the system has no port left to offer (`clashes_or_of_build`): what each loop has done so far leaves
room for every service that is still to come.
-/

namespace LocalTopology

/-! ## Clashes -/

namespace Graph

/-- The active runner of a service declares a port. -/
def Claims (g : Graph) (mode : Mode) (n : String) (p : Port) : Prop :=
  ∃ s r, g.Serves n s ∧ activeRunner mode n s = .ok r ∧ r.declaredPort = some p

/-- A service on the workstation has an ingress that is routed under a host and a path. -/
def Occupies (g : Graph) (mode : Mode) (n : String) (key : String × String) : Prop :=
  ∃ s r i, g.Serves n s ∧ activeRunner mode n s = .ok r ∧ r.isRemote = false ∧
    s.ingress = some i ∧ i.key = key

/-- Two services of a graph want the same, or one wants what no service can have. -/
inductive Clashes (g : Graph) (mode : Mode) : Prop
  | name {d : Dependency} {s : Service} (depends : d ∈ g.dependencies)
    (declared : g.services.get? d.blueprint.serviceName = some s)
  | zero {n : String} (claims : g.Claims mode n 0)
  | port {n m : String} {p : Port} (ne : n ≠ m) (left : g.Claims mode n p)
    (right : g.Claims mode m p)
  | route {n m : String} {key : String × String} (ne : n ≠ m) (left : g.Occupies mode n key)
    (right : g.Occupies mode m key)

/-- What merging grants of every service that a graph declares. -/
structure Sound (g : Graph) : Prop where
  declared : ∀ n s, g.services.get? n = some s → s.origin = .declared
  runners : ∀ n s, g.services.get? n = some s → s.runners ≠ []
  accepted : ∀ n s i, g.services.get? n = some s → s.ingress = some i → i.IsAccepted

theorem sound_of_ofFragments {fs : List Fragment} {g : Graph} (h : ofFragments fs = .ok g) :
    g.Sound where
  declared _ _ hs := (Service.unites_of_ofFragments h hs).origin
  runners n s hs := by
    obtain ⟨-, hservices, -⟩ := Fragment.complete_eq_ok_iff.1 h
    obtain ⟨d, -, hd⟩ := Registry.get?_traverse hservices hs
    obtain ⟨hne, -, -, hr, -⟩ := ServiceFragment.complete_eq_ok_iff.1 hd
    rw [hr]
    exact hne
  accepted _ _ _ hs hi := isAccepted_of_ofFragments h hs hi

end Graph

theorem Service.exists_standing {s : Service} (h : s.runners ≠ []) (name : String) (mode : Mode) :
    ∃ x, s.standing name mode = some x := by
  rw [← Option.isSome_iff_exists]
  cases mode with
  | onWorkstation =>
    simp only [standing]
    split <;> rfl
  | remote environment =>
    obtain ⟨r, rs, hr⟩ := List.exists_cons_of_ne_nil h
    simp only [standing]
    split
    · split <;> rfl
    · rfl
    · next hnone => simp [hr] at hnone

theorem Graph.Sound.exists_standing {g : Graph} (hg : g.Sound) {n : String} {s : Service}
    (hs : g.Serves n s) (mode : Mode) : ∃ x, s.standing n mode = some x := by
  refine Service.exists_standing ?_ n mode
  rcases hs with hs | ⟨d, -, -, rfl⟩
  · exact hg.runners n s hs
  · simp [Dependency.service]

namespace BuildState

variable {g : Graph} {c : Context} {services : Registry Service} {st st' : BuildState}

/-! ## Expanding and checking -/

theorem clashes_of_expandDependencies {mode : Mode} {e : Error}
    (h : g.dependencies.foldlM expandDependency g.services = .error e) : g.Clashes mode := by
  have hno : ¬ Expandable g.services g.dependencies := fun hall => by
    obtain ⟨m, hm⟩ := exists_expanded_iff.2 hall
    cases h.symm.trans hm
  rw [Expandable] at hno
  push Not at hno
  obtain ⟨d, hd, s, hs, -⟩ := hno
  exact .name hd hs

theorem checkIngress_eq_ok_iff {name : String} {s : Service} :
    checkIngress name s = .ok () ↔ ∀ i, s.ingress = some i → i.IsAccepted := by
  unfold checkIngress
  rcases hi : s.ingress with _ | i
  · simp
  · simp only [checkHost, Option.some.injEq, forall_eq']
    by_cases hhost : Hostname.isAccepted i.host = true
    · by_cases hpath : Text.startsWith "/" i.path = true
      · exact iff_of_true (by simp [hhost, hpath, bind, Except.bind]) ⟨hhost, hpath⟩
      · exact iff_of_false (by simp [hhost, hpath, bind, Except.bind]) fun h => hpath h.path
    · exact iff_of_false (by simp [hhost, bind, Except.bind]) fun h => hhost h.host

/-- The ingresses of a state pass exactly if each is accepted. -/
theorem validateIngress_eq_ok_iff : st.validateIngress = .ok st ↔
    ∀ n s i, st.services.get? n = some s → s.ingress = some i → i.IsAccepted := by
  have hall : (st.services.entries.forM fun e => checkIngress e.1 e.2) = .ok () ↔
      ∀ n s i, st.services.get? n = some s → s.ingress = some i → i.IsAccepted := by
    simp only [forM_eq_ok_iff, Prod.forall, Registry.get?_eq_some_iff, checkIngress_eq_ok_iff]
    grind
  rw [← hall, validateIngress]
  rcases st.services.entries.forM fun e => checkIngress e.1 e.2 with fault | u
  · exact iff_of_false (by rintro ⟨⟩) (by rintro ⟨⟩)
  · exact iff_of_true rfl rfl

/-- Merging has checked the ingresses already, and dependencies have none. -/
theorem validateIngress_expanded (hg : g.Sound)
    (h : g.dependencies.foldlM expandDependency g.services = .ok services) (offers : List Port) :
    ({ ofGraph g offers with services } : BuildState).validateIngress =
      .ok { ofGraph g offers with services } := by
  refine validateIngress_eq_ok_iff.2 fun n s i hs hi => ?_
  rcases (get?_expandDependencies_iff hg.declared h).1 hs with hs | ⟨d, -, -, rfl⟩
  · exact hg.accepted n s i hs hi
  · cases hi

/-! ## Claiming -/

theorem claimDeclared_eq_error {mode : Mode} {l : PortLedger} {name : String} {s : Service}
    {e : Error} (h : claimDeclared mode l name s = .error e) :
    ∃ r p, activeRunner mode name s = .ok r ∧ r.declaredPort = some p ∧
      (p = 0 ∨ ∃ owner, l.owner? p = some owner ∧ owner ≠ name) := by
  unfold claimDeclared at h
  rcases ha : activeRunner mode name s with e' | r <;> simp only [ha] at h
  · cases h
  · rcases hd : r.declaredPort with _ | p <;> simp only [hd] at h
    · cases h
    · rcases hc : l.claim name p with fault | l' <;> rw [hc] at h <;> cases h
      exact ⟨r, p, rfl, hd, PortLedger.claim_eq_error hc⟩

theorem owner?_of_claimDeclared {mode : Mode} {l l' : PortLedger} {name : String} {s : Service}
    (h : claimDeclared mode l name s = .ok l') {r : Runner} (ha : activeRunner mode name s = .ok r)
    {p : Port} (hp : r.declaredPort = some p) : p ≠ 0 ∧ l'.owner? p = some name := by
  unfold claimDeclared at h
  rcases hc : l.claim name p with fault | lc <;> simp only [ha, hp, hc] at h <;> cases h
  obtain ⟨h0, -, howner⟩ := PortLedger.claim_eq_ok hc
  exact ⟨h0, by rw [howner, if_pos rfl]⟩

theorem clashes_of_claims {mode : Mode} {l : PortLedger} {e : Error}
    (hserves : ∀ n s, services.get? n = some s → g.Serves n s) (hl : ∀ p, l.owner? p = none)
    (h : services.entries.foldlM (fun l e => claimDeclared mode l e.1 e.2) l = .error e) :
    g.Clashes mode := by
  -- Until a claim fails, each port is owned by a service that declares it.
  obtain ⟨⟨name, s⟩, hmem, l', hl', he⟩ := foldlM_eq_error
    (P := fun l => ∀ p n, l.owner? p = some n → g.Claims mode n p)
    (fun p n ho => by
      rw [hl] at ho
      cases ho)
    (by
      rintro ⟨name, s⟩ hmem l l' hl hstep p n ho
      rcases (claimDeclared_eq_ok hstep).2 p n ho with ho | ⟨rfl, r, hr, hp⟩
      · exact hl p n ho
      · have hs := hserves _ _ (Registry.get?_eq_some_iff.2 hmem)
        exact ⟨s, r, hs, (activeRunner_of_standing hr).1, hp⟩) h
  obtain ⟨r, p, ha, hp, hfault⟩ := claimDeclared_eq_error he
  have hclaims : g.Claims mode name p :=
    ⟨s, r, hserves _ _ (Registry.get?_eq_some_iff.2 hmem), ha, hp⟩
  rcases hfault with rfl | ⟨owner, ho, hne⟩
  · exact .zero hclaims
  · exact .port hne (hl' p owner ho) hclaims

/-- Claimed ports are owned by services on the workstation. -/
theorem owned_of_claims {mode : Mode} {l ports : PortLedger} (hl : ∀ p, l.owner? p = none)
    (h : services.entries.foldlM (fun l e => claimDeclared mode l e.1 e.2) l = .ok ports) :
    ∀ p n, ports.owner? p = some n → ∃ s r, Hosts services mode n s r := by
  refine foldlM_induction (P := fun l => ∀ p n, l.owner? p = some n →
    ∃ s r, Hosts services mode n s r) ?_ ?_ h
  · intro p n ho
    rw [hl] at ho
    cases ho
  · rintro ⟨name, s⟩ hmem l l' hl hstep p n ho
    rcases (claimDeclared_eq_ok hstep).2 p n ho with ho | ⟨rfl, r, hr, -⟩
    · exact hl p n ho
    · exact ⟨s, r, Registry.get?_eq_some_iff.2 hmem, hr⟩

/-- Once all ports are claimed, each is owned by the service that declares it. -/
theorem owner?_of_claims {mode : Mode} {l ports : PortLedger}
    (h : services.entries.foldlM (fun l e => claimDeclared mode l e.1 e.2) l = .ok ports)
    {n : String} {s : Service} (hs : services.get? n = some s) {r : Runner}
    (ha : activeRunner mode n s = .ok r) {p : Port} (hp : r.declaredPort = some p) :
    p ≠ 0 ∧ ports.owner? p = some n := by
  refine foldlM_forall (Q := fun e l => ∀ r p, activeRunner mode e.1 e.2 = .ok r →
    r.declaredPort = some p → p ≠ 0 ∧ l.owner? p = some e.1) ?_ ?_ h (n, s)
    (Registry.get?_eq_some_iff.1 hs) r p ha hp
  · intro e _ l l' hstep r p ha hp
    exact owner?_of_claimDeclared hstep ha hp
  · intro e _ d _ l l' hd hstep r p ha hp
    obtain ⟨h0, ho⟩ := hd r p ha hp
    exact ⟨h0, (claimDeclared_eq_ok hstep).1 _ _ ho⟩

/-! ## Compiling -/

theorem keeps_compileService {name : String} {s : Service}
    (h : compileService c st name s = .ok st') : st.ports.Keeps st'.ports := by
  rcases compileService_cases h with ⟨why, -, rfl⟩ | ⟨url, -, rfl⟩ | ⟨r, p, ports, _, -, ho, -, rfl⟩
  · exact .refl _
  · exact .refl _
  · obtain ⟨-, hown, howner⟩ := PortLedger.obtain_eq_ok ho
    simpa using PortLedger.keeps_of_owner? hown howner

theorem Coherent.occupies_of_mem (h : st.Coherent c)
    (hserves : ∀ n s, st.services.get? n = some s → g.Serves n s) {x : Route}
    (hx : x ∈ st.routes.routes) : g.Occupies c.mode x.service x.key := by
  obtain ⟨s, i, scheme, hs, hi, hk, he⟩ := h.routed x hx
  obtain ⟨r, hstands, -⟩ := h.here_of_endpoint hs he
  obtain ⟨ha, hr⟩ := activeRunner_of_standing hstands
  exact ⟨s, r, i, hserves _ _ hs, ha, hr, hi, hk.symm⟩

/-- A service whose port is claimed fails to be compiled on the route of another, or when it
declares no port and the system has none left. -/
theorem clashes_or_of_compileService (h : st.Coherent c)
    (hserves : ∀ n s, st.services.get? n = some s → g.Serves n s)
    (hstanding : ∀ n s, g.Serves n s → ∃ x, s.standing n c.mode = some x) {name : String}
    {s : Service} (hs : st.services.get? name = some s)
    (howned : ∀ r p, activeRunner c.mode name s = .ok r → r.declaredPort = some p →
      p ≠ 0 ∧ st.ports.owner? p = some name) {e : Error}
    (he : LocalTopology.compileService c st name s = .error e) :
    g.Clashes c.mode ∨ (∃ fault, e = .port (.noneFree fault)) ∧
      ∃ r, Hosts st.services c.mode name s r ∧ r.declaredPort = none := by
  obtain ⟨r, hstands, hcause⟩ := compileService_eq_error he
    (Option.isSome_iff_exists.2 (hstanding _ _ (hserves _ _ hs)))
  obtain ⟨ha, hr⟩ := activeRunner_of_standing hstands
  rcases hcause with ⟨fault, ho, rfl⟩ | ⟨b, hroute⟩
  · rcases PortLedger.obtain_eq_error ho with ⟨hnone, f, rfl⟩ | ⟨p, hp, hfault⟩
    · exact .inr ⟨⟨f, rfl⟩, r, ⟨hs, hstands⟩, hnone⟩
    · obtain ⟨h0, hown⟩ := howned r p ha hp
      rcases hfault with rfl | ⟨owner, howner, hne⟩
      · exact absurd rfl h0
      · exact absurd (Option.some.inj (howner.symm.trans hown)) hne
  · obtain ⟨i, hi, x, hx, hk, hne⟩ := DispatchTable.withIngress_eq_error h.wellFormed hroute
    have hother := h.occupies_of_mem hserves hx
    rw [hk] at hother
    exact .inl (.route hne hother ⟨s, r, i, hserves _ _ hs, ha, hr, hi, rfl⟩)

theorem clashes_or_of_compileRunners (h : st.Coherent c)
    (hserves : ∀ n s, st.services.get? n = some s → g.Serves n s)
    (hstanding : ∀ n s, g.Serves n s → ∃ x, s.standing n c.mode = some x)
    (hports : ∀ p, st.ports.owner? p = none) {e : Error} (he : st.compileRunners c = .error e) :
    g.Clashes c.mode ∨ (∃ fault, e = .port (.noneFree fault)) ∧
      ∃ n s r, Hosts st.services c.mode n s r ∧ r.declaredPort = none := by
  unfold compileRunners at he
  rcases hclaims : st.services.entries.foldlM (fun l e => claimDeclared c.mode l e.1 e.2) st.ports
    with e' | ports
  · exact .inl (clashes_of_claims hserves hports hclaims)
  simp only [hclaims, bind, Except.bind] at he
  have hkeeps : st.ports.Keeps ports := fun p _ ho => by
    rw [hports] at ho
    cases ho
  have hstart := h.withPorts hkeeps (owned_of_claims hports hclaims)
  obtain ⟨⟨name, s⟩, hmem, a, ⟨ha, hsame, hkeeps⟩, hfail⟩ := foldlM_eq_error
    (P := fun a => a.Coherent c ∧ a.services = st.services ∧ ports.Keeps a.ports)
    ⟨hstart, rfl, .refl _⟩ (by
      rintro ⟨name, s⟩ hmem a a' ⟨ha, hsame, hkeeps⟩ hstep
      have hget : a.services.get? name = some s := by
        rw [hsame]
        exact Registry.get?_eq_some_iff.2 hmem
      obtain ⟨ha', hsame'⟩ := ha.compileService hget hstep
      exact ⟨ha', hsame'.trans hsame, hkeeps.trans (keeps_compileService hstep)⟩) he
  have hs := Registry.get?_eq_some_iff.2 hmem
  have howned : ∀ r p, activeRunner c.mode name s = .ok r → r.declaredPort = some p →
      p ≠ 0 ∧ a.ports.owner? p = some name := by
    -- The port was claimed before, and nothing has taken it from the service since.
    intro r p hr hp
    obtain ⟨h0, hown⟩ := owner?_of_claims hclaims hs hr hp
    exact ⟨h0, hkeeps _ _ hown⟩
  rcases clashes_or_of_compileService ha (hsame ▸ hserves) hstanding (hsame ▸ hs) howned hfail
    with hclash | ⟨hfault, r, hh, hnone⟩
  · exact .inl hclash
  · exact .inr ⟨hfault, name, s, r, hsame ▸ hh, hnone⟩

/-- Every service that occupies a host and a path has the route of that key. -/
theorem Coherent.exists_route_of_occupies (h : st.Coherent c)
    (hserves : ∀ n s, g.Serves n s → st.services.get? n = some s)
    (htells : ∀ n s, st.services.get? n = some s → st.Tells n) {n : String}
    {key : String × String} (ho : g.Occupies c.mode n key) :
    ∃ x ∈ st.routes.routes, x.service = n ∧ x.key = key := by
  obtain ⟨s, r, i, hn, ha, hr, hi, rfl⟩ := ho
  have hs := hserves n s hn
  obtain ⟨-, b, hb, -⟩ := h.endpoint_of_here hs (htells n s hs) (standing_of_activeRunner ha hr)
  obtain ⟨x, hx, rfl, -⟩ := hb.routed i hi
  obtain ⟨s', i', scheme, hs', hi', hk, -⟩ := h.routed x hx
  cases hs.symm.trans hs'
  cases hi.symm.trans hi'
  exact ⟨x, hx, rfl, hk⟩

/-- Services that have been compiled want neither a port nor a route of each other, which leaves the
names of dependencies to clash. -/
theorem exists_name_of_clashes (h : st.Coherent c) (hcompiled : st.compileRunners c = .ok st')
    (hserves : ∀ n s, st.services.get? n = some s ↔ g.Serves n s) (hclash : g.Clashes c.mode) :
    ∃ d ∈ g.dependencies, ∃ s, g.services.get? d.blueprint.serviceName = some s := by
  obtain ⟨hc, hsame⟩ := h.compileRunners hcompiled
  obtain ⟨ports, hports, -⟩ := compileRunners_eq_ok hcompiled
  have hclaims : ∀ {n p}, g.Claims c.mode n p → p ≠ 0 ∧ ports.owner? p = some n := by
    rintro n p ⟨s, r, hn, ha, hp⟩
    exact owner?_of_claims hports ((hserves n s).2 hn) ha hp
  rcases hclash with ⟨hdepends, hdeclared⟩ | hzero | ⟨hne, hleft, hright⟩ | ⟨hne, hleft, hright⟩
  · exact ⟨_, hdepends, _, hdeclared⟩
  · exact absurd rfl (hclaims hzero).1
  · exact absurd (Option.some.inj ((hclaims hleft).2.symm.trans (hclaims hright).2)) hne
  · -- Two services of one key would have one route.
    have htells : ∀ n s, st'.services.get? n = some s → st'.Tells n :=
      fun n s hs => tells_compileRunners hcompiled (hsame ▸ hs)
    have hkept : ∀ n s, g.Serves n s → st'.services.get? n = some s :=
      fun n s hn => hsame ▸ (hserves n s).2 hn
    obtain ⟨x, hx, rfl, hxk⟩ := hc.exists_route_of_occupies hkept htells hleft
    obtain ⟨y, hy, rfl, hyk⟩ := hc.exists_route_of_occupies hkept htells hright
    exact absurd (congrArg Route.service
      (List.inj_on_of_nodup_map hc.wellFormed.nodup hx hy (hxk.trans hyk.symm))) hne

/-! ## Whole builds -/

/-- A run that fails does so in its first step, whose name the error tells, or after it. -/
theorem runSteps_cons_eq_error {step : Step} {steps : List Step} {t : FileTree} {e : Error}
    (h : (runSteps c g (step :: steps) st t).state = .error e) :
    (step.needsFiles = true ∧ (runSteps c g steps st t).state = .error e) ∨
      (∃ e' t', step.run c g st t = (.error e', t') ∧ e = .inStep step.name e') ∨
        ∃ next t', step.run c g st t = (.ok next, t') ∧
          (runSteps c g steps next t').state = .error e := by
  unfold runSteps at h
  split_ifs at h with hskip
  · simp only [Bool.and_eq_true] at hskip
    exact .inl ⟨hskip.1, h⟩
  · rcases hs : step.run c g st t with ⟨e' | next, t'⟩ <;> rw [hs] at h
    · cases h
      exact .inr (.inl ⟨e', t', rfl, rfl⟩)
    · exact .inr (.inr ⟨next, t', rfl, h⟩)

variable {offers : List Port} {t : FileTree}

theorem not_clashes_of_build (hg : g.Sound)
    (h : (build c g offers [.expandDependencies, .validateIngress, .compileRunners] t).state =
      .ok st) : ¬ g.Clashes c.mode := by
  obtain ⟨services, compiled, t', hd, hcompiled, rfl, hend⟩ := compiled_of_build h
  cases hend
  have hstart : Coherent { ofGraph g offers with services := st.services } c :=
    (coherent_ofGraph g offers c).withServices fun _ _ hs => get?_expandedDependencies hd hs
  intro hclash
  obtain ⟨d, hdepends, s, hdeclared⟩ := exists_name_of_clashes hstart hcompiled
    (fun n s => get?_expandDependencies_iff hg.declared hd) hclash
  -- A declared service keeps its name, so no dependency was expanded under it.
  rw [get?_eq_none_of_expanded hg.declared hd hdepends] at hdeclared
  cases hdeclared

theorem clashes_or_of_build (hg : g.Sound) {e : Error}
    (h : (build c g offers [.expandDependencies, .validateIngress, .compileRunners] t).state =
      .error e) :
    g.Clashes c.mode ∨
      ∃ fault, e = .inStep Step.compileRunners.name (.port (.noneFree fault)) := by
  rcases runSteps_cons_eq_error h with ⟨⟨⟩, -⟩ | ⟨e₁, t₁, h₁, rfl⟩ | ⟨st₁, t₁, h₁, hb₁⟩
  · have he := congrArg Prod.fst h₁
    simp only [Step.run, expandDependencies] at he
    rcases hd : g.dependencies.foldlM expandDependency (ofGraph g offers).services
      with e' | services <;> rw [hd] at he <;> cases he
    exact .inl (clashes_of_expandDependencies hd)
  obtain ⟨services, hd, rfl⟩ := expandDependencies_eq_ok (congrArg Prod.fst h₁)
  have hserves : ∀ n s, services.get? n = some s → g.Serves n s :=
    fun n s => (get?_expandDependencies_iff hg.declared hd).1
  have hvalid := validateIngress_expanded hg hd offers
  rcases runSteps_cons_eq_error hb₁ with ⟨⟨⟩, -⟩ | ⟨e₂, t₂, h₂, rfl⟩ | ⟨st₂, t₂, h₂, hb₂⟩
  · cases hvalid.symm.trans (congrArg Prod.fst h₂)
  obtain rfl := Except.ok.inj (hvalid.symm.trans (congrArg Prod.fst h₂))
  rcases runSteps_cons_eq_error hb₂ with ⟨⟨⟩, -⟩ | ⟨e₃, t₃, h₃, rfl⟩ | ⟨st₃, t₃, h₃, hb₃⟩
  · have hstart := (coherent_ofGraph g offers c).run h₁
    rcases clashes_or_of_compileRunners hstart hserves (fun n s hs => hg.exists_standing hs c.mode)
      (fun _ => rfl) (congrArg Prod.fst h₃) with hclash | ⟨⟨fault, rfl⟩, -⟩
    · exact .inl hclash
    · exact .inr ⟨fault, rfl⟩
  · cases hb₃

end BuildState

/-- As long as the system has ports to offer, building a merged graph up to its compiled services
fails exactly if the graph clashes in the mode; otherwise it ends with the reason of every service
that has no address in the mode. -/
theorem build_eq_error_iff_clashes {fs : List Fragment} {g : Graph} {c : Context}
    {offers : List Port} {t : FileTree} (hg : Graph.ofFragments fs = .ok g)
    (hoffers : ∀ step fault,
      (build c g offers [.expandDependencies, .validateIngress, .compileRunners] t).state ≠
        .error (.inStep step (.port (.noneFree fault)))) :
    ((∃ e, (build c g offers
        [.expandDependencies, .validateIngress, .compileRunners] t).state = .error e) ↔
      g.Clashes c.mode) ∧
    (¬ g.Clashes c.mode → ∃ st, (build c g offers
        [.expandDependencies, .validateIngress, .compileRunners] t).state = .ok st ∧
      ∀ n s why, g.Serves n s → Stands c.mode n s (.nowhere why) →
        st.failures.get? n = some why) := by
  have hsound := Graph.sound_of_ofFragments hg
  rcases hb : (build c g offers [.expandDependencies, .validateIngress, .compileRunners] t).state
    with e | st
  · have hclash : g.Clashes c.mode := by
      rcases BuildState.clashes_or_of_build hsound hb with hclash | ⟨fault, rfl⟩
      · exact hclash
      · exact absurd hb (hoffers _ fault)
    exact ⟨iff_of_true ⟨e, rfl⟩ hclash, fun hno => absurd hclash hno⟩
  · have hno := BuildState.not_clashes_of_build hsound hb
    refine ⟨iff_of_false (by rintro ⟨e, ⟨⟩⟩) hno, fun _ => ⟨st, rfl, fun n s why hn hwhy => ?_⟩⟩
    have hc := coherent_build hb
    obtain ⟨services, compiled, t', hd, hcompiled, rfl, hend⟩ := BuildState.compiled_of_build hb
    cases hend
    have hs := (get?_expandDependencies_iff hsound.declared hd).2 hn
    have htells := BuildState.tells_compileRunners hcompiled hs
    obtain ⟨x, hx⟩ := hc.exists_standing hs htells
    obtain rfl := hwhy.eq (.of_standing hx)
    exact (hc.failure_of_nowhere hs htells hx).1

/-- An inactive runner and a service that is not reached want what another service has. -/
theorem build_eq_error_iff_clashes_deployed :
    let c : Context :=
      { mode := .remote "dev", workDirectory := "/work", home := ⟨"/home"⟩, proxyPort := 1347 }
    let f : Fragment :=
      { name := some "shop",
        dependencies := [.redis],
        services := .ofList
          [("crm", { runners :=
              [.project { project := "crm", port := some 5000 },
                .remote { environments := .ofList [("dev", "https://crm.dev/")] }] }),
            ("web", { ingress := some { host := some "web.workleap.localhost" },
                      runners := [.project { project := "web", port := some 5000 }] }),
            ("old", { ingress := some { host := some "web.workleap.localhost" },
                      runners :=
                        [.remote { environments := .ofList [("prod", "https://old.prod/")] }] }),
            ("docs", { runners := [.mock { specification := "docs.yml" }] })] }
    ∃ g st, Graph.ofFragments [f] = .ok g ∧ ¬ g.Clashes c.mode ∧
      (build c g [5001] [.expandDependencies, .validateIngress, .compileRunners] {}).state =
        .ok st ∧ st.failures.get? "old" = some (.unmapped "old" "dev") := by
  intro c f
  obtain ⟨g, hg, hold⟩ : ∃ g, Graph.ofFragments [f] = .ok g ∧ g.services.get? "old" = some
      { ingress := some ⟨"web.workleap.localhost", "/"⟩,
        runners := [.remote { environments := .ofList [("prod", "https://old.prod/")] }] } :=
    ⟨_, rfl, by decide⟩
  obtain ⟨st, h⟩ : ∃ st, (build c g [5001]
      [.expandDependencies, .validateIngress, .compileRunners] {}).state = .ok st := by
    cases hg
    exact ⟨_, rfl⟩
  have hoffers : ∀ step fault, (build c g [5001]
      [.expandDependencies, .validateIngress, .compileRunners] {}).state ≠
        .error (.inStep step (.port (.noneFree fault))) := by
    intro step fault he
    cases h.symm.trans he
  obtain ⟨hiff, hok⟩ := build_eq_error_iff_clashes hg hoffers
  have hno : ¬ g.Clashes c.mode := fun hclash => by
    obtain ⟨e, he⟩ := hiff.2 hclash
    cases h.symm.trans he
  obtain ⟨st', h', hfailures⟩ := hok hno
  exact ⟨g, st', hg, hno, h', hfailures "old" _ _ (.inl hold) (.of_standing rfl)⟩

end LocalTopology
