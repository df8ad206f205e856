import LocalTopology.Build.Topology
import LocalTopology.Proofs.Building
import LocalTopology.Proofs.Merging
import Mathlib.Data.Option.Basic

/-!
# How the address book answers

A compiled topology knows the services that its graph declares and those that provide its
dependencies, and no others (`get?_expandDependencies_iff`). Each of them was compiled, so the
address book answers for it as it stands in the mode of the build (`answers_ofState`): a service
that is deployed elsewhere has the URL that is mapped for the environment, one that is nowhere to be
reached has the reason, and one on the workstation has the address of its backend.
-/

namespace LocalTopology

open Text

/-! ## Standings, by the runners of a service -/

theorem standing_of_remoteOnly {s : Service} {name : String}
    (h : ∀ r ∈ s.runners, r.isRemote = true) :
    s.standing name .onWorkstation = some (.nowhere (.remoteOnly name .onWorkstation)) := by
  have hn : s.runners.find? (!·.isRemote) = none := by
    rw [List.find?_eq_none]
    intro r hr
    simp [h r hr]
  simp only [Service.standing, hn]

/-- A deployed instance is preferred wherever it stands, as there is only one. -/
theorem standing_of_deployed {s : Service} {name environment : String} {r : RemoteRunner}
    (hn : (s.runners.map Runner.target).Nodup) (hr : .remote r ∈ s.runners) :
    s.standing name (.remote environment) = some
      (match r.environments.get? environment with
        | some url => .elsewhere (trimEndSlashes url)
        | none => .nowhere (.unmapped name environment)) := by
  have hf : s.runners.find? (·.isRemote) = some (.remote r) := by
    rcases hf : s.runners.find? (·.isRemote) with _ | x
    · exact absurd rfl (List.find?_eq_none.1 hf _ hr)
    · have hx := List.find?_some hf
      have ht : x.target = (Runner.remote r).target := by
        cases x with
        | remote x => rfl
        | _ => cases hx
      rw [hf, List.inj_on_of_nodup_map hn (List.mem_of_find?_eq_some hf) hr ht]
  have hor : (s.runners.find? (·.isRemote) <|> s.runners.head?) = some (.remote r) := by
    rw [hf]
    rfl
  simp only [Service.standing, hor]
  cases r.environments.get? environment <;> rfl

/-- Without a deployed instance, or on the workstation, the first other runner is used. -/
theorem standing_of_local {s : Service} {name : String} {mode : Mode} {r : Runner}
    (hr : s.runners.find? (!·.isRemote) = some r)
    (hmode : ∀ environment, mode = .remote environment → ∀ x ∈ s.runners, x.isRemote = false) :
    s.standing name mode = some (.here r) := by
  cases mode with
  | onWorkstation => simp only [Service.standing, hr]
  | remote environment =>
    have hlocal := hmode environment rfl
    have hn : s.runners.find? (·.isRemote) = none := by
      rw [List.find?_eq_none]
      intro x hx
      simp [hlocal x hx]
    rcases hs : s.runners with _ | ⟨x, xs⟩
    · simp [hs] at hr
    · have hx := hlocal x (by simp [hs])
      obtain rfl : x = r := by simpa [hs, hx] using hr
      have hor : (s.runners.find? (·.isRemote) <|> s.runners.head?) = some x := by
        rw [hn, hs]
        rfl
      simp only [Service.standing, hor]
      cases x with
      | remote x => cases hx
      | _ => rfl

/-! ## The services of a topology -/

/-- The services of a graph are those that it declares and those that provide its dependencies. -/
def Graph.Serves (g : Graph) (name : String) (s : Service) : Prop :=
  g.services.get? name = some s ∨
    ∃ d ∈ g.dependencies, d.blueprint.serviceName = name ∧ s = d.service

/-- What expanding the dependencies of a graph makes of its services. -/
theorem get?_expandDependencies_iff {g : Graph} {services : Registry Service}
    (hg : ∀ n s, g.services.get? n = some s → s.origin = .declared)
    (h : g.dependencies.foldlM expandDependency g.services = .ok services) {n : String}
    {s : Service} : services.get? n = some s ↔ g.Serves n s := by
  rw [get?_expanded h, Option.orElse_eq_some, providedBy_eq_some_iff]
  refine or_congr_right ⟨?_, ?_⟩
  · rintro ⟨-, d, hd, hn, rfl⟩
    exact ⟨d, hd, hn, rfl⟩
  · rintro ⟨d, hd, rfl, rfl⟩
    exact ⟨get?_eq_none_of_expanded hg h hd, d, hd, rfl, rfl⟩

section Compile

variable {g : Graph} {c : Context} {offers : List Port} {t : FileTree}

/-- A graph is compiled as it is built up to its compiled services, and then written if the context
says so. -/
theorem Graph.compile_eq (g : Graph) (c : Context) (offers : List Port) (t : FileTree) :
    g.compile c offers t =
      match (build c g offers [.expandDependencies, .validateIngress, .compileRunners] t).state with
      | .error e => (.error e, t)
      | .ok st =>
        if c.persists then
          match st.writeManifests c t with
          | (.error e, t) => (.error (.inStep Step.writeManifests.name e), t)
          | (.ok st, t) => (.ok (.ofState c g st), t)
        else (.ok (.ofState c g st), t) := by
  have hcompile : g.compile c offers t =
      ((build c g offers Step.standard t).reached.1.map (.ofState c g),
        (build c g offers Step.standard t).reached.2) := rfl
  have hcompute : ∀ step ∈ [Step.expandDependencies, .validateIngress, .compileRunners],
      step.needsFiles = false := by decide
  have hreached := BuildState.reached_runSteps_of_needsFiles_eq_false (c := c) (g := g) c.persists
    t t (.ofGraph g offers) hcompute
  rw [hcompile, build, show Step.standard = [.expandDependencies, .validateIngress,
    .compileRunners] ++ [.writeManifests] from rfl, BuildState.reached_runSteps_append, hreached]
  simp only [build]
  rcases (runSteps c g [.expandDependencies, .validateIngress, .compileRunners]
    (.ofGraph g offers) t).state with e | st
  · rfl
  · simp only [BuildState.reached_runSteps_cons, Step.run]
    rcases c.persists with _ | _
    · rfl
    · rcases st.writeManifests c t with ⟨e | st', t'⟩ <;> rfl

/-- What a graph is compiled to shows the state of its build, whether or not it was written. -/
theorem Graph.exists_build_of_compile {topology : Topology}
    (h : (g.compile c offers t).1 = .ok topology) :
    ∃ st written, (build c g offers [.expandDependencies, .validateIngress, .compileRunners]
      t).state = .ok st ∧ topology = { Topology.ofState c g st with written } := by
  rw [Graph.compile_eq] at h
  rcases hb : (build c g offers [.expandDependencies, .validateIngress, .compileRunners] t).state
    with e | st <;> rw [hb] at h
  · cases h
  refine ⟨st, ?_⟩
  simp only at h
  split_ifs at h
  · rcases hw : st.writeManifests c t with ⟨e | st', t'⟩ <;> rw [hw] at h <;> cases h
    obtain ⟨written, -, rfl⟩ := BuildState.writeManifests_eq_ok hw
    refine ⟨some written, rfl, ?_⟩
    rw [Topology.ofState, Topology.ofState, (BuildState.unwritten_of_build hb).1]
    rfl
  · cases h
    exact ⟨_, rfl, rfl⟩

/-- A graph that compiles is known by a coherent state that has its services, dependencies expanded,
and tells of all of them. -/
theorem Graph.exists_state_of_compile {topology : Topology}
    (h : (g.compile c offers t).1 = .ok topology) :
    ∃ st : BuildState, topology = .ofState c g st ∧ st.Coherent c ∧
      g.dependencies.foldlM expandDependency g.services = .ok st.services ∧
        ∀ n s, st.services.get? n = some s → st.Tells n := by
  obtain ⟨st, written, hb, rfl⟩ := Graph.exists_build_of_compile h
  refine ⟨{ st with written }, rfl, (coherent_build hb).withManifests st.manifests written, ?_⟩
  obtain ⟨services, compiled, t', hd, hcompiled, rfl, hend⟩ := BuildState.compiled_of_build hb
  cases hend
  exact ⟨hd, fun n s hs => BuildState.tells_compileRunners hcompiled hs⟩

theorem Graph.compile_eq_ok {topology : Topology}
    (hg : ∀ n s, g.services.get? n = some s → s.origin = .declared)
    (h : (g.compile c offers t).1 = .ok topology) :
    ∃ st : BuildState, topology = .ofState c g st ∧ st.Coherent c ∧
      ∀ n s, (st.services.get? n = some s ↔ g.Serves n s) ∧ (st.services.get? n = some s →
        st.Tells n) := by
  obtain ⟨st, htopology, hc, hd, htells⟩ := Graph.exists_state_of_compile h
  exact ⟨st, htopology, hc, fun n s => ⟨get?_expandDependencies_iff hg hd, htells n s⟩⟩

end Compile

/-- The scheme by which clients address a service: that of its dependency, or else that of its
runner's protocol. -/
def Service.scheme (s : Service) (r : Runner) : String :=
  match s.origin with
  | .declared => r.protocol.scheme
  | .dependency d => d.blueprint.scheme

theorem Graph.Serves.scheme_eq {g : Graph} {n : String} {s : Service} {r : Runner}
    (hg : ∀ n s, g.services.get? n = some s → s.origin = .declared) (h : g.Serves n s)
    (hr : r ∈ s.runners) : r.scheme s.origin = s.scheme r := by
  rcases h with hs | ⟨d, -, -, rfl⟩
  · rw [Service.scheme, hg n s hs]
    cases r <;> rfl
  · obtain rfl : r = d.runner := by simpa [Dependency.service] using hr
    rfl

theorem Graph.Serves.nodup_target {g : Graph} {n : String} {s : Service}
    (hg : ∀ n s, g.services.get? n = some s → (s.runners.map Runner.target).Nodup)
    (h : g.Serves n s) : (s.runners.map Runner.target).Nodup := by
  rcases h with hs | ⟨d, -, -, rfl⟩
  · exact hg n s hs
  · exact List.nodup_singleton _

/-! ## The address book of a coherent state -/

namespace AddressBook

variable {st : BuildState} {c : Context} {n : String} {s : Service}

theorem lookup_ofState (st : BuildState) (p : Port) (n : String) :
    (ofState st p).entries.lookup n = (st.services.get? n).bind (entryOf? st n) :=
  Registry.lookup_filterMap st.services (entryOf? st) n

theorem find_ofState (st : BuildState) (p : Port) (n : String) :
    (ofState st p).find n =
      match (st.services.get? n).bind (entryOf? st n) with
      | some (.reached endpoint ingress _) => .ok (endpoint, ingress)
      | some (.failed failure) => .error (.unresolved failure)
      | none => .error (.serviceNotFound n) := by
  rcases hb : (st.services.get? n).bind (entryOf? st n) with _ | e | e <;>
    simp only [find, lookup_ofState, hb]

theorem find_ofState_eq_ok {p : Port} {e : Endpoint} {i : Option Ingress}
    (h : (ofState st p).find n = .ok (e, i)) :
    ∃ s, st.services.get? n = some s ∧ st.endpoints.get? n = some e ∧
      i = s.ingress.filter fun _ => (st.routes.routeOf? n).isSome := by
  rw [find_ofState] at h
  rcases hs : st.services.get? n with _ | s <;> simp only [hs, Option.bind] at h
  · cases h
  rcases hf : st.failures.get? n with _ | why <;> simp only [entryOf?, hf] at h
  · rcases he : st.endpoints.get? n with _ | e' <;> simp only [he] at h <;> cases h
    exact ⟨s, rfl, rfl, rfl⟩
  · cases h

/-- A service that is nowhere to be reached is kept with the reason. -/
theorem find_of_nowhere (hc : st.Coherent c) (hs : st.services.get? n = some s)
    (ht : st.Tells n) {why : Unresolved} (hstands : s.standing n c.mode = some (.nowhere why))
    (p : Port) : (ofState st p).find n = .error (.unresolved why) := by
  obtain ⟨hf, -⟩ := hc.failure_of_nowhere hs ht hstands
  simp [find_ofState, hs, entryOf?, hf]

/-- A service that is deployed elsewhere is kept with its URL, and has no route. -/
theorem find_of_elsewhere (hc : st.Coherent c) (hs : st.services.get? n = some s)
    (ht : st.Tells n) {url : String} (hstands : s.standing n c.mode = some (.elsewhere url))
    (p : Port) : (ofState st p).find n = .ok (.remote url, none) := by
  obtain ⟨hf, he⟩ := hc.endpoint_of_elsewhere hs ht hstands
  -- A route would belong to an endpoint on the workstation.
  have hroute : st.routes.routeOf? n = none := by
    rw [DispatchTable.routeOf?, List.find?_eq_none]
    intro x hx hxn
    obtain ⟨_, _, scheme, -, -, -, he'⟩ := hc.routed x hx
    rw [beq_iff_eq.1 hxn, he] at he'
    cases he'
  simp [find_ofState, hs, entryOf?, hf, he, hroute]

/-- A service on the workstation is kept with its backend, and has a route if it has an ingress. -/
theorem find_of_here (hc : st.Coherent c) (hs : st.services.get? n = some s)
    (ht : st.Tells n) {r : Runner} (hstands : s.standing n c.mode = some (.here r)) (p : Port) :
    ∃ b, st.Places c n s r b ∧
      (ofState st p).find n = .ok (.onWorkstation b (r.scheme s.origin), s.ingress) := by
  obtain ⟨hf, b, hb, he⟩ := hc.endpoint_of_here hs ht hstands
  refine ⟨b, hb, ?_⟩
  rcases hi : s.ingress with _ | i
  · simp [find_ofState, hs, entryOf?, hf, he, hi]
  · obtain ⟨x, hx, hxn, -⟩ := hb.routed i hi
    have hroute : (st.routes.routeOf? n).isSome = true := by
      rw [DispatchTable.routeOf?, List.find?_isSome]
      exact ⟨x, hx, by simp [hxn]⟩
    simp [find_ofState, hs, entryOf?, hf, he, hi, hroute]

/-! ## Answers -/

/-- The three queries for the address of a service all fail for one reason. -/
structure Fails (b : AddressBook) (service : String) (e : Error) : Prop where
  preferred : b.preferredUrl service = .error e
  proxied : b.proxyUrl service = .error e
  direct : b.directUrl service = .error e

theorem fails_of_find {b : AddressBook} {e : Error} (h : b.find n = .error e) : b.Fails n e where
  preferred := by simp only [preferredUrl, h, bind, Except.bind]
  proxied := by simp only [proxyUrl, h, bind, Except.bind]
  direct := by simp only [directUrl, h, bind, Except.bind]

/-- What is answered for a service of a graph, by its runners and the mode. -/
structure Answers (b : AddressBook) (c : Context) (ports : PortLedger) (n : String) (s : Service) :
    Prop where
  remoteOnly : c.mode = .onWorkstation → (∀ r ∈ s.runners, r.isRemote = true) →
    b.Fails n (.unresolved (.remoteOnly n .onWorkstation))
  mapped : ∀ environment r url, c.mode = .remote environment → .remote r ∈ s.runners →
    r.environments.get? environment = some url →
      b.preferredUrl n = .ok (trimEndSlashes url) ∧ b.directUrl n = .ok (trimEndSlashes url) ∧
        b.proxyUrl n = .error (.notRouted n)
  unmapped : ∀ environment r, c.mode = .remote environment → .remote r ∈ s.runners →
    r.environments.get? environment = none → b.Fails n (.unresolved (.unmapped n environment))
  here : ∀ r, s.runners.find? (!·.isRemote) = some r →
    (∀ environment, c.mode = .remote environment → ∀ x ∈ s.runners, x.isRemote = false) →
      ∃ backend : Backend, backend.protocol = r.protocol ∧
        (∀ p, r.declaredPort = some p → backend.port = p) ∧
          ports.owner? backend.port = some n ∧
            b.directUrl n = .ok s!"{s.scheme r}://{backend.authority}" ∧
              match s.ingress with
              | some i =>
                b.proxyUrl n =
                  .ok (s!"http://{foldCase i.host}:{c.proxyPort}" ++ trimEndSlashes i.path) ∧
                    b.preferredUrl n = b.proxyUrl n
              | none => b.proxyUrl n = .error (.notRouted n) ∧ b.preferredUrl n = b.directUrl n

theorem answers_ofState (hc : st.Coherent c) (hs : st.services.get? n = some s)
    (ht : st.Tells n) (hn : (s.runners.map Runner.target).Nodup)
    (hscheme : ∀ r ∈ s.runners, r.scheme s.origin = s.scheme r) :
    (ofState st c.proxyPort).Answers c st.ports n s where
  remoteOnly hmode hall := by
    refine fails_of_find (find_of_nowhere hc hs ht ?_ _)
    rw [hmode]
    exact standing_of_remoteOnly hall
  mapped environment r url hmode hmem hurl := by
    have hstands : s.standing n (.remote environment) = _ := standing_of_deployed hn hmem
    rw [hurl, ← hmode] at hstands
    have hfind := find_of_elsewhere hc hs ht hstands c.proxyPort
    refine ⟨?_, ?_, ?_⟩
    · simp only [preferredUrl, hfind, bind, Except.bind, pure, Except.pure]
    · simp only [directUrl, hfind, bind, Except.bind, pure, Except.pure, Endpoint.directUrl]
    · simp only [proxyUrl, hfind, bind, Except.bind]
  unmapped environment r hmode hmem hurl := by
    have hstands : s.standing n (.remote environment) = _ := standing_of_deployed hn hmem
    rw [hurl, ← hmode] at hstands
    exact fails_of_find (find_of_nowhere hc hs ht hstands _)
  here r hfirst hmode := by
    obtain ⟨b, hb, hfind⟩ := find_of_here hc hs ht (standing_of_local hfirst hmode) c.proxyPort
    rw [hscheme r (List.mem_of_find?_eq_some hfirst)] at hfind
    refine ⟨b, hb.protocol, hb.declared, hb.owner, ?_, ?_⟩
    · simp only [directUrl, hfind, bind, Except.bind, pure, Except.pure, Endpoint.directUrl]
    · rcases hi : s.ingress with _ | i <;> rw [hi] at hfind
      · refine ⟨?_, ?_⟩
        · simp only [proxyUrl, hfind, bind, Except.bind]
        · simp only [preferredUrl, directUrl, hfind, bind, Except.bind, pure, Except.pure]
      · refine ⟨?_, ?_⟩
        · simp only [proxyUrl, hfind, bind, Except.bind, pure, Except.pure]
          rfl
        · simp only [preferredUrl, proxyUrl, hfind, bind, Except.bind, pure, Except.pure]

/-- On the workstation no deployed instance is ever found. -/
theorem isRemote_of_find (hc : st.Coherent c) (hmode : c.mode = .onWorkstation) {p : Port}
    {e : Endpoint} {i : Option Ingress} (h : (ofState st p).find n = .ok (e, i)) :
    e.isRemote = false := by
  obtain ⟨s, hs, he, -⟩ := find_ofState_eq_ok h
  rcases e with ⟨b, scheme⟩ | url
  · rfl
  · have hstands := hc.elsewhere_of_endpoint hs he
    rw [hmode, Service.standing] at hstands
    split at hstands <;> cases hstands

end AddressBook

/-- The address book of a graph that is compiled knows no other services than those of the graph,
and answers for each of them by its runners and the mode alone. -/
theorem answers_of_compile {fs : List Fragment} {g : Graph} {c : Context} {offers : List Port}
    {t : FileTree} {topology : Topology} (hg : Graph.ofFragments fs = .ok g)
    (h : (g.compile c offers t).1 = .ok topology) (n : String) :
    ((∀ s, ¬ g.Serves n s) → topology.addresses.Fails n (.serviceNotFound n)) ∧
      (c.mode = .onWorkstation →
        ∀ e i, topology.addresses.find n = .ok (e, i) → e.isRemote = false) ∧
      ∀ s, g.Serves n s → topology.addresses.Answers c topology.ports n s := by
  have hdeclared : ∀ n s, g.services.get? n = some s → s.origin = .declared :=
    fun n s hs => (Service.unites_of_ofFragments hg hs).origin
  have hnodup : ∀ n s, g.services.get? n = some s → (s.runners.map Runner.target).Nodup :=
    fun n s hs => (Service.unites_of_ofFragments hg hs).nodup_target
  obtain ⟨st, rfl, hc, hservices⟩ := Graph.compile_eq_ok hdeclared h
  refine ⟨fun hnot => ?_, fun hmode e i => AddressBook.isRemote_of_find hc hmode, fun s hs => ?_⟩
  · refine AddressBook.fails_of_find ?_
    have hnone : st.services.get? n = none := by
      rw [Option.eq_none_iff_forall_ne_some]
      exact fun s hs => hnot s ((hservices n s).1.1 hs)
    rw [Topology.ofState, AddressBook.find_ofState, hnone]
    rfl
  · have hget := (hservices n s).1.2 hs
    exact AddressBook.answers_ofState hc hget ((hservices n s).2 hget) (hs.nodup_target hnodup)
      fun r => hs.scheme_eq hdeclared

/-- A service that is deployed in the environment of the build, and a dependency of it. -/
theorem answers_of_compile_deployed :
    let crm : RemoteRunner := { environments := .ofList [("dev", "https://crm.dev/")] }
    let fs : List Fragment :=
      [{ name := some "shop",
         dependencies := [.redis],
         services := .ofList
           [("crm", { runners := [.project { project := "crm" }, .remote crm] })] }]
    let c : Context :=
      { mode := .remote "dev", workDirectory := "/work", home := ⟨"/home"⟩, proxyPort := 1347 }
    ∃ g topology, Graph.ofFragments fs = .ok g ∧ (g.compile c [5001] {}).1 = .ok topology ∧
      topology.addresses.preferredUrl "crm" = .ok "https://crm.dev" ∧
        topology.addresses.directUrl "redis" = .ok "redis://127.0.0.1:6380" := by
  intro crm fs c
  obtain ⟨g, hg, hcrm, hredis⟩ : ∃ g, Graph.ofFragments fs = .ok g ∧
      g.Serves "crm" { runners := [.project { project := "crm" }, .remote crm] } ∧
        g.Serves "redis" Dependency.redis.service :=
    ⟨_, rfl, .inl (by decide), .inr ⟨.redis, by decide, rfl, rfl⟩⟩
  obtain ⟨topology, h⟩ : ∃ topology, (g.compile c [5001] {}).1 = .ok topology := by
    cases hg
    exact ⟨_, rfl⟩
  have hmapped := ((answers_of_compile hg h "crm").2.2 _ hcrm).mapped "dev" crm
    "https://crm.dev/" rfl (by simp) (by decide)
  obtain ⟨⟨protocol, port⟩, hprotocol, hport, -, hdirect, -⟩ :=
    ((answers_of_compile hg h "redis").2.2 _ hredis).here Dependency.redis.runner rfl
      fun _ _ x hx => by simp [List.mem_singleton.1 hx, Dependency.runner, Runner.isRemote]
  obtain rfl : protocol = .http := hprotocol
  obtain rfl : port = 6380 := hport 6380 rfl
  refine ⟨g, topology, hg, h, hmapped.1.trans ?_, hdirect.trans ?_⟩
  · rfl
  · rfl

end LocalTopology
