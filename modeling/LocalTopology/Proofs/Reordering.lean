import LocalTopology.Proofs.Clashing
import LocalTopology.Proofs.Settling

/-!
# The order of declarations

A registry answers for a name whatever the order of its entries, also where dependencies are
expanded beside them (`expanded_of_perm`). Whether services can be compiled together hangs on these
answers only (`exists_build_iff`), and where every service on the workstation declares its port, so
does all that compiling them leaves: each part of the state holds what the services say that are
found under their names, and no part tells which of them came first (`Settled.alike`).
-/

namespace LocalTopology

/-! ## Services in another order -/

/-- Services that are declared in another order are found under the same names. -/
theorem get?_of_perm {α : Type} {m m' : Registry α} (h : m.entries.Perm m'.entries) (n : String) :
    m.get? n = m'.get? n := by
  refine Option.ext fun s => ?_
  rw [Registry.get?_eq_some_iff, Registry.get?_eq_some_iff, h.mem_iff]

/-- Expanding succeeds in any order, and finds the same services under every name. -/
theorem expanded_of_perm {g h : Graph} (hservices : g.services.entries.Perm h.services.entries)
    (hdependencies : g.dependencies.Perm h.dependencies) {services : Registry Service}
    (hg : g.dependencies.foldlM expandDependency g.services = .ok services) :
    ∃ services', h.dependencies.foldlM expandDependency h.services = .ok services' ∧
      ∀ n, services.get? n = services'.get? n := by
  have hsame := get?_of_perm hservices
  have hexpandable : Expandable h.services h.dependencies := by
    intro d hd s hs
    rw [← hsame] at hs
    exact exists_expanded_iff.1 ⟨services, hg⟩ d (hdependencies.mem_iff.2 hd) s hs
  obtain ⟨services', hh⟩ := exists_expanded_iff.2 hexpandable
  refine ⟨services', hh, fun n => ?_⟩
  rw [get?_expanded hg, get?_expanded hh, hsame, providedBy_perm hdependencies]

/-! ## Services that can be compiled together -/

theorem Hosts.congr {services services' : Registry Service} {mode : Mode} {n : String} {s : Service}
    {r : Runner} (hsame : ∀ n, services.get? n = services'.get? n)
    (h : Hosts services mode n s r) : Hosts services' mode n s r :=
  ⟨(hsame n).symm.trans h.service, h.stands⟩

/-- Every service can be compiled, and no two of them want the same. -/
structure Compilable (services : Registry Service) (mode : Mode) : Prop where
  accepted : ∀ n s i, services.get? n = some s → s.ingress = some i → i.IsAccepted
  standing : ∀ n s, services.get? n = some s → ∃ x, s.standing n mode = some x
  noClash : ¬ Graph.Clashes { name := "", services } mode

theorem serves_iff {services : Registry Service} {n : String} {s : Service} :
    Graph.Serves { name := "", services } n s ↔ services.get? n = some s := by
  simp [Graph.Serves]

theorem Compilable.congr {services services' : Registry Service} {mode : Mode}
    (hsame : ∀ n, services.get? n = services'.get? n) (h : Compilable services mode) :
    Compilable services' mode where
  accepted n s i hs := h.accepted n s i ((hsame n).trans hs)
  standing n s hs := h.standing n s ((hsame n).trans hs)
  noClash hclash := by
    refine h.noClash ?_
    have hserves : ∀ {n s}, Graph.Serves { name := "", services := services' } n s →
        Graph.Serves { name := "", services } n s := by
      intro n s hs
      rw [serves_iff] at hs ⊢
      exact (hsame n).trans hs
    have hclaims : ∀ {n p}, Graph.Claims { name := "", services := services' } mode n p →
        Graph.Claims { name := "", services } mode n p := fun ⟨s, r, hs, hrest⟩ =>
      ⟨s, r, hserves hs, hrest⟩
    have hoccupies : ∀ {n key}, Graph.Occupies { name := "", services := services' } mode n key →
        Graph.Occupies { name := "", services } mode n key := fun ⟨s, r, i, hs, hrest⟩ =>
      ⟨s, r, i, hserves hs, hrest⟩
    rcases hclash with ⟨⟨⟩, -⟩ | hzero | ⟨hne, hleft, hright⟩ | ⟨hne, hleft, hright⟩
    · exact .zero (hclaims hzero)
    · exact .port hne (hclaims hleft) (hclaims hright)
    · exact .route hne (hoccupies hleft) (hoccupies hright)

namespace BuildState

variable {g : Graph} {c : Context} {offers : List Port} {t : FileTree} {st st' : BuildState}

theorem compilable_of_build
    (h : (build c g offers [.expandDependencies, .validateIngress, .compileRunners] t).state =
      .ok st) : ∃ services, g.dependencies.foldlM expandDependency g.services = .ok services ∧
        Compilable services c.mode := by
  rcases runSteps_cons_eq_ok h with ⟨⟨⟩, -⟩ | ⟨st₁, t₁, h₁, hb₁⟩
  rcases runSteps_cons_eq_ok hb₁ with ⟨⟨⟩, -⟩ | ⟨st₂, t₂, h₂, hb₂⟩
  rcases runSteps_cons_eq_ok hb₂ with ⟨⟨⟩, -⟩ | ⟨st₃, t₃, h₃, hb₃⟩
  have hstart := (coherent_ofGraph g offers c).run h₁
  obtain ⟨services, hd, rfl⟩ := expandDependencies_eq_ok (congrArg Prod.fst h₁)
  have hvalid := congrArg Prod.fst h₂
  obtain rfl := validateIngress_eq_ok hvalid
  have hcompiled := congrArg Prod.fst h₃
  obtain ⟨hc, hsame⟩ := hstart.compileRunners hcompiled
  refine ⟨services, hd, validateIngress_eq_ok_iff.1 hvalid, ?_, ?_⟩
  · exact fun n s hs => hc.exists_standing (hsame ▸ hs) (tells_compileRunners hcompiled hs)
  · intro hclash
    obtain ⟨d, ⟨⟩, -⟩ :=
      exists_name_of_clashes hstart hcompiled (fun n s => serves_iff.symm) hclash

theorem exists_build_of_compilable {services : Registry Service}
    (hd : g.dependencies.foldlM expandDependency g.services = .ok services)
    (hports : DeclarePorts services c.mode) (hcompilable : Compilable services c.mode) :
    ∃ st, (build c g offers [.expandDependencies, .validateIngress, .compileRunners] t).state =
      .ok st := by
  rcases hb : (build c g offers [.expandDependencies, .validateIngress, .compileRunners] t).state
    with e | st
  swap
  · exact ⟨st, rfl⟩
  rcases runSteps_cons_eq_error hb with ⟨⟨⟩, -⟩ | ⟨e₁, t₁, h₁, rfl⟩ | ⟨st₁, t₁, h₁, hb₁⟩
  · have he := congrArg Prod.fst h₁
    simp only [Step.run, expandDependencies, ofGraph, hd, bind, Except.bind] at he
    cases he
  have hstart := (coherent_ofGraph g offers c).run h₁
  obtain ⟨services', hd', rfl⟩ := expandDependencies_eq_ok (congrArg Prod.fst h₁)
  cases hd.symm.trans hd'
  have hvalid : validateIngress { ofGraph g offers with services } = .ok _ :=
    validateIngress_eq_ok_iff.2 hcompilable.accepted
  rcases runSteps_cons_eq_error hb₁ with ⟨⟨⟩, -⟩ | ⟨e₂, t₂, h₂, rfl⟩ | ⟨st₂, t₂, h₂, hb₂⟩
  · cases hvalid.symm.trans (congrArg Prod.fst h₂)
  obtain rfl := Except.ok.inj (hvalid.symm.trans (congrArg Prod.fst h₂))
  rcases runSteps_cons_eq_error hb₂ with ⟨⟨⟩, -⟩ | ⟨e₃, t₃, h₃, rfl⟩ | ⟨st₃, t₃, h₃, hb₃⟩
  · rcases clashes_or_of_compileRunners (g := { name := "", services }) hstart
        (fun n s => serves_iff.2) (fun n s hs => hcompilable.standing n s (serves_iff.1 hs))
        (fun _ => rfl) (congrArg Prod.fst h₃) with hclash | ⟨-, n, s, r, hh, hnone⟩
    · exact absurd hclash hcompilable.noClash
    · obtain ⟨p, hp⟩ := hports n s r hh
      cases hnone.symm.trans hp
  · cases hb₃

/-- A graph is built exactly if its dependencies can be expanded and all services compiled. -/
theorem exists_build_iff (hports : ∀ services,
      g.dependencies.foldlM expandDependency g.services = .ok services →
        DeclarePorts services c.mode) :
    (∃ st, (build c g offers [.expandDependencies, .validateIngress, .compileRunners] t).state =
        .ok st) ↔
      ∃ services, g.dependencies.foldlM expandDependency g.services = .ok services ∧
        Compilable services c.mode :=
  ⟨fun ⟨_, h⟩ => compilable_of_build h, fun ⟨services, hd, hcompilable⟩ =>
    exists_build_of_compilable hd (hports services hd) hcompilable⟩

/-! ## States of graphs in different orders -/

/-- Two states hold the same under every name and every port, and route every request alike. -/
structure Alike (st st' : BuildState) : Prop where
  endpoints : ∀ n, st.endpoints.get? n = st'.endpoints.get? n
  failures : ∀ n, st.failures.get? n = st'.failures.get? n
  containers : ∀ n, st.compose.services.get? n = st'.compose.services.get? n
  processes : ∀ n, st.supervisor.processes.get? n = st'.supervisor.processes.get? n
  owners : ∀ p, st.ports.owner? p = st'.ports.owner? p
  volumes : ∀ v, v ∈ st.compose.volumes.keys ↔ v ∈ st'.compose.volumes.keys
  mock : st.requiresMockServer = st'.requiresMockServer
  routes : ∀ host path, st.routes.resolve host path = st'.routes.resolve host path

section Alike

variable (hsame : ∀ n, st.services.get? n = st'.services.get? n)
include hsame

theorem hosts_iff {n : String} {s : Service} {r : Runner} :
    Hosts st.services c.mode n s r ↔ Hosts st'.services c.mode n s r :=
  ⟨.congr hsame, .congr fun n => (hsame n).symm⟩

theorem Settled.mem_routes_iff (h : st.Settled c) (h' : st'.Settled c) (x : Route) :
    x ∈ st.routes.routes ↔ x ∈ st'.routes.routes := by
  rw [h.route_iff, h'.route_iff]
  simp only [hosts_iff hsame]

theorem Settled.alike (h : st.Settled c) (h' : st'.Settled c) : st.Alike st' where
  endpoints n := Option.ext fun e => by
    rw [h.endpoint_iff, h'.endpoint_iff]
    simp only [hosts_iff hsame, hsame]
  failures n := Option.ext fun why => by
    rw [h.failure_iff, h'.failure_iff]
    simp only [hsame]
  containers n := Option.ext fun e => by
    rw [h.container_iff, h'.container_iff]
    simp only [hosts_iff hsame]
  processes n := Option.ext fun e => by
    rw [h.process_iff, h'.process_iff]
    simp only [hosts_iff hsame]
  owners p := Option.ext fun n => by
    rw [h.owner_iff, h'.owner_iff]
    simp only [hosts_iff hsame]
  volumes v := by
    rw [h.volumes.named, h'.volumes.named]
    simp only [h.container_iff, h'.container_iff, hosts_iff hsame]
  mock := by
    rw [Bool.eq_iff_iff, h.mock_iff, h'.mock_iff]
    simp only [hosts_iff hsame]
  routes := DispatchTable.resolve_congr_mem h.coherent.wellFormed h'.coherent.wellFormed
    (h.mem_routes_iff hsame h')

end Alike

end BuildState

namespace AddressBook

/-- Two address books give the same answer to every query about a service. -/
structure AnswersAlike (b b' : AddressBook) (service : String) : Prop where
  preferred : b.preferredUrl service = b'.preferredUrl service
  proxied : b.proxyUrl service = b'.proxyUrl service
  direct : b.directUrl service = b'.directUrl service
  healthcheck : b.healthcheckPath? service = b'.healthcheckPath? service

theorem answersAlike_of_lookup {b b' : AddressBook} {n : String}
    (hport : b.proxyPort = b'.proxyPort) (h : b.entries.lookup n = b'.entries.lookup n) :
    b.AnswersAlike b' n := by
  have hfind : b.find n = b'.find n := by rw [find, find, h]
  have hproxied : b.proxied = b'.proxied := funext fun i => by rw [proxied, proxied, hport]
  constructor
  · rw [preferredUrl, preferredUrl, hfind, hproxied]
  · rw [proxyUrl, proxyUrl, hfind, hproxied]
  · rw [directUrl, directUrl, hfind]
  · rw [healthcheckPath?, healthcheckPath?, h]

theorem answersAlike_ofState {st st' : BuildState} {c : Context}
    (hsame : ∀ n, st.services.get? n = st'.services.get? n) (h : st.Settled c)
    (h' : st'.Settled c) (p : Port) (n : String) :
    (ofState st p).AnswersAlike (ofState st' p) n := by
  refine answersAlike_of_lookup rfl ?_
  have halike := h.alike hsame h'
  have hroute : (st.routes.routeOf? n).isSome = (st'.routes.routeOf? n).isSome := by
    rw [Bool.eq_iff_iff, DispatchTable.routeOf?, DispatchTable.routeOf?, List.find?_isSome,
      List.find?_isSome]
    simp only [h.mem_routes_iff hsame h']
  have hentry : ∀ s, entryOf? st n s = entryOf? st' n s := fun s => by
    rw [entryOf?, entryOf?, halike.failures, halike.endpoints, hroute]
  rw [lookup_ofState, lookup_ofState, hsame, funext hentry]

end AddressBook

/-- A dependency is provided on the workstation, on a port that it declares. -/
theorem Dependency.declaredPort_of_activeRunner {d : Dependency} {mode : Mode} {n : String}
    {r : Runner} (h : activeRunner mode n d.service = .ok r) :
    r.declaredPort = some d.blueprint.hostPort := by
  cases mode <;> cases h <;> rfl

theorem declarePorts_expanded {g : Graph} {mode : Mode}
    (hports : ∀ n s r, g.services.get? n = some s → activeRunner mode n s = .ok r →
      r.isRemote = false → ∃ p, r.declaredPort = some p) {services : Registry Service}
    (h : g.dependencies.foldlM expandDependency g.services = .ok services) :
    DeclarePorts services mode := by
  intro n s r hh
  obtain ⟨ha, hr⟩ := activeRunner_of_standing hh.stands
  have hget := hh.service
  rw [get?_expanded h] at hget
  rcases hs : g.services.get? n with _ | s' <;> rw [hs] at hget
  · obtain ⟨d, -, -, rfl⟩ := providedBy_eq_some_iff.1 hget
    exact ⟨_, Dependency.declaredPort_of_activeRunner ha⟩
  · cases hget
    exact hports n _ r hs ha hr

/-- Two graphs that declare the same services and dependencies in different orders, every service on
the workstation with its port, are built together or not at all, and then to states that hold the
same under every name and port, route every request alike and answer alike for every service. -/
theorem build_of_perm {g h : Graph} {c : Context}
    (hservices : g.services.entries.Perm h.services.entries)
    (hdependencies : g.dependencies.Perm h.dependencies)
    (hports : ∀ n s r, g.services.get? n = some s → activeRunner c.mode n s = .ok r →
      r.isRemote = false → ∃ p, r.declaredPort = some p)
    (offers offers' : List Port) (t t' : FileTree) :
    ((∃ st, (build c g offers [.expandDependencies, .validateIngress, .compileRunners] t).state =
        .ok st) ↔
      ∃ st', (build c h offers' [.expandDependencies, .validateIngress, .compileRunners] t').state =
        .ok st') ∧
    ∀ st st',
      (build c g offers [.expandDependencies, .validateIngress, .compileRunners] t).state =
        .ok st →
      (build c h offers' [.expandDependencies, .validateIngress, .compileRunners] t').state =
        .ok st' →
      st.Alike st' ∧ ∀ p n,
        (AddressBook.ofState st p).AnswersAlike (AddressBook.ofState st' p) n := by
  have hdeclare : ∀ services, g.dependencies.foldlM expandDependency g.services = .ok services →
      DeclarePorts services c.mode := fun _ hd => declarePorts_expanded hports hd
  have hdeclare' : ∀ services, h.dependencies.foldlM expandDependency h.services = .ok services →
      DeclarePorts services c.mode := by
    refine fun services hd => declarePorts_expanded (fun n s r hs => ?_) hd
    rw [← get?_of_perm hservices] at hs
    exact hports n s r hs
  refine ⟨?_, fun st st' hst hst' => ?_⟩
  · rw [BuildState.exists_build_iff hdeclare, BuildState.exists_build_iff hdeclare']
    constructor
    · rintro ⟨services, hd, hcompilable⟩
      obtain ⟨services', hd', hsame⟩ := expanded_of_perm hservices hdependencies hd
      exact ⟨services', hd', hcompilable.congr hsame⟩
    · rintro ⟨services, hd, hcompilable⟩
      obtain ⟨services', hd', hsame⟩ := expanded_of_perm hservices.symm hdependencies.symm hd
      exact ⟨services', hd', hcompilable.congr hsame⟩
  · obtain ⟨hd, hsettled⟩ := BuildState.settled_of_build hdeclare hst
    obtain ⟨hd', hsettled'⟩ := BuildState.settled_of_build hdeclare' hst'
    obtain ⟨services', hh, hsame⟩ := expanded_of_perm hservices hdependencies hd
    cases hd'.symm.trans hh
    exact ⟨hsettled.alike hsame hsettled',
      AddressBook.answersAlike_ofState hsame hsettled hsettled'⟩

/-- Two services share a host, and a third is deployed; the routes of the two graphs stand in
different orders. -/
theorem build_of_perm_swapped :
    let c : Context :=
      { mode := .remote "dev", workDirectory := "/work", home := ⟨"/home"⟩, proxyPort := 1347 }
    let api : Service :=
      { ingress := some ⟨"app.workleap.localhost", "/api"⟩,
        runners := [.container { image := "api", containerPort := 80, hostPort := some 5000 }] }
    let web : Service :=
      { ingress := some ⟨"app.workleap.localhost", "/web"⟩,
        runners := [.project { project := "web", port := some 5001 }] }
    let crm : Service :=
      { runners := [.remote { environments := .ofList [("dev", "https://crm.dev/")] }] }
    let g : Graph :=
      { name := "shop", dependencies := [.redis, .mongo],
        services := .ofList [("api", api), ("crm", crm), ("web", web)] }
    let h : Graph :=
      { name := "shop", dependencies := [.mongo, .redis],
        services := .ofList [("crm", crm), ("web", web), ("api", api)] }
    ∃ st st', (build c g [] [.expandDependencies, .validateIngress, .compileRunners] {}).state =
        .ok st ∧
      (build c h [] [.expandDependencies, .validateIngress, .compileRunners] {}).state = .ok st' ∧
      st.routes.routes.map Route.service = ["api", "web"] ∧
      st'.routes.routes.map Route.service = ["web", "api"] ∧
      st.Alike st' ∧ ∀ p n,
        (AddressBook.ofState st p).AnswersAlike (AddressBook.ofState st' p) n := by
  intro c api web crm g h
  have hservices : g.services.entries.Perm h.services.entries := by
    change ([("api", api)] ++ [("crm", crm), ("web", web)]).Perm
      ([("crm", crm), ("web", web)] ++ [("api", api)])
    exact List.perm_append_comm
  have hports : ∀ n s r, g.services.get? n = some s → activeRunner c.mode n s = .ok r →
      r.isRemote = false → ∃ p, r.declaredPort = some p := by
    intro n s r hs ha hr
    have hmem : (n, s) ∈ [("api", api), ("crm", crm), ("web", web)] :=
      Registry.get?_eq_some_iff.1 hs
    simp only [List.mem_cons, Prod.mk.injEq, List.not_mem_nil, or_false] at hmem
    rcases hmem with ⟨rfl, rfl⟩ | ⟨rfl, rfl⟩ | ⟨rfl, rfl⟩ <;> cases ha
    · exact ⟨5000, rfl⟩
    · cases hr
    · exact ⟨5001, rfl⟩
  obtain ⟨st, hst, hroutes⟩ : ∃ st, (build c g []
      [.expandDependencies, .validateIngress, .compileRunners] {}).state = .ok st ∧
        st.routes.routes.map Route.service = ["api", "web"] := ⟨_, rfl, rfl⟩
  obtain ⟨st', hst', hroutes'⟩ : ∃ st', (build c h []
      [.expandDependencies, .validateIngress, .compileRunners] {}).state = .ok st' ∧
        st'.routes.routes.map Route.service = ["web", "api"] := ⟨_, rfl, rfl⟩
  obtain ⟨-, halike⟩ := build_of_perm hservices (.swap _ _ _) hports [] [] {} {}
  exact ⟨st, st', hst, hst', hroutes, hroutes', halike st st' hst hst'⟩

end LocalTopology
