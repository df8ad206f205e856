import LocalTopology.Proofs.Settling

/-!
# Compiling once more

A state shows a service when it holds all that compiling the service would put there: its port, its
entry and volumes, its route and its endpoint, or the reason why it has none
(`BuildState.Shows`). A service that declares its port is shown once it has been compiled
(`shows_compileService`), compiling another service leaves it shown (`Shows.of_compileService`), and
compiling it again then changes nothing (`Shows.compileService_eq_self`).
-/

namespace LocalTopology

open Text

/-! ## Entries -/

namespace Runner

/-- The volumes that a runner declares by their names. -/
def volumes : Runner → List String
  | container r => r.volumes.filterMap namedVolume?
  | _ => []

/-- The manifests hold what a runner enters in them on a port. -/
structure IsEntered (r : Runner) (c : Context) (name : String) (origin : Origin) (p : Port)
    (st : BuildState) : Prop where
  container : ∀ e, r.container? origin p = some e → st.compose.services.get? name = some e
  process : ∀ e, r.process? c p = some e → st.supervisor.processes.get? name = some e
  volumes : ∀ v ∈ r.volumes, v ∈ st.compose.volumes.keys
  mock : r.isMock = true → st.requiresMockServer = true

variable {r : Runner} {c : Context} {name : String} {origin : Origin} {p : Port}
  {st st' : BuildState}

theorem mem_volumes_enter {v : String} :
    v ∈ (r.enter c name origin p st).compose.volumes.keys ↔
      v ∈ st.compose.volumes.keys ∨ v ∈ r.volumes := by
  cases r <;> simp [enter, volumes, ComposeManifest.addService,
    ComposeManifest.mem_volumes_foldl_addVolume]

theorem isEntered_enter : r.IsEntered c name origin p (r.enter c name origin p st) where
  container e he := by
    cases r with
    | container r =>
      simpa [container?, enter, ComposeManifest.addService, Registry.get?_put] using he
    | _ => cases he
  process e he := by
    cases r with
    | container r => cases he
    | remote r => cases he
    | _ => simpa [process?, enter, SupervisorManifest.addProcess, Registry.get?_put] using he
  volumes v hv := mem_volumes_enter.2 (.inr hv)
  mock hm := by rw [requiresMockServer_enter, hm, Bool.or_true]

theorem IsEntered.congr (h : r.IsEntered c name origin p st)
    (hcontainer : st'.compose.services.get? name = st.compose.services.get? name)
    (hprocess : st'.supervisor.processes.get? name = st.supervisor.processes.get? name)
    (hvolumes : ∀ v ∈ st.compose.volumes.keys, v ∈ st'.compose.volumes.keys)
    (hmock : st.requiresMockServer = true → st'.requiresMockServer = true) :
    r.IsEntered c name origin p st' where
  container e he := hcontainer.trans (h.container e he)
  process e he := hprocess.trans (h.process e he)
  volumes v hv := hvolumes v (h.volumes v hv)
  mock hm := hmock (h.mock hm)

theorem IsEntered.enter_eq_self (h : r.IsEntered c name origin p st) :
    r.enter c name origin p st = st := by
  cases r with
  | container r =>
    have hvolumes : (r.volumes.filterMap namedVolume?).foldl ComposeManifest.addVolume st.compose =
        st.compose := ComposeManifest.foldl_addVolume_eq_self h.volumes
    have hservices := Registry.put_eq_self (h.container _ rfl)
    simp only [enter, hvolumes, ComposeManifest.addService, hservices]
  | project r =>
    simp only [enter, SupervisorManifest.addProcess, Registry.put_eq_self (h.process _ rfl)]
  | executable r =>
    simp only [enter, SupervisorManifest.addProcess, Registry.put_eq_self (h.process _ rfl)]
  | mock r =>
    have hmock := h.mock rfl
    have hprocesses := Registry.put_eq_self (h.process _ rfl)
    simp only [enter, SupervisorManifest.addProcess, hprocesses, ← hmock]
  | remote r => rfl

end Runner

/-! ## Routes -/

namespace DispatchTable

variable {t t' : DispatchTable} {service : String} {b : Backend} {ingress : Option Ingress}

theorem at?_of_withIngress (h : t.withIngress service b ingress = .ok t') :
    (∀ i ∈ ingress, t'.at? i.key.1 i.key.2 = some (i.route service b)) ∧
      ∀ host path x, t.at? host path = some x → x.service ≠ service →
        t'.at? host path = some x := by
  rcases ingress with _ | i
  · cases h
    exact ⟨by simp, fun _ _ _ hx _ => hx⟩
  · obtain ⟨hown, hat⟩ := insert_eq_ok h
    refine ⟨fun j hj => ?_, fun host path x hx hne => ?_⟩
    · cases hj
      simp only [hat, Ingress.key, Ingress.route, and_self, if_true]
    · -- The route of another service has another key, or the ingress would be refused.
      rw [hat, if_neg, hx]
      rintro ⟨rfl, rfl⟩
      exact hne (hown x hx)

theorem withIngress_eq_self
    (h : ∀ i ∈ ingress, t.at? i.key.1 i.key.2 = some (i.route service b)) :
    t.withIngress service b ingress = .ok t := by
  rcases ingress with _ | i
  · rfl
  · have hat := h i rfl
    simp only [Ingress.route, Ingress.key] at hat
    exact insert_eq_self hat

end DispatchTable

/-! ## Services -/

namespace BuildState

variable {c : Context} {st st' : BuildState} {name other : String} {s s' : Service}

/-- A state holds all that compiling a service would put there. -/
inductive Shows (st : BuildState) (c : Context) (name : String) (s : Service) : Prop
  | here {r : Runner} {p : Port} (stands : s.standing name c.mode = some (.here r))
    (declared : r.declaredPort = some p) (nonzero : p ≠ 0)
    (owner : st.ports.owner? p = some name) (entered : r.IsEntered c name s.origin p st)
    (routed : ∀ i ∈ s.ingress,
      st.routes.at? i.key.1 i.key.2 = some (i.route name ⟨r.protocol, p⟩))
    (endpoint : st.endpoints.get? name =
      some (.onWorkstation ⟨r.protocol, p⟩ (r.scheme s.origin)))
  | elsewhere {url : String} (stands : s.standing name c.mode = some (.elsewhere url))
    (endpoint : st.endpoints.get? name = some (.remote url))
  | nowhere {why : Unresolved} (stands : s.standing name c.mode = some (.nowhere why))
    (failure : st.failures.get? name = some why)

theorem shows_compileService
    (hport : ∀ r, s.standing name c.mode = some (.here r) → ∃ p, r.declaredPort = some p)
    (h : compileService c st name s = .ok st') : st'.Shows c name s := by
  rcases compileService_cases h with ⟨why, hstands, rfl⟩ | ⟨url, hstands, rfl⟩ |
    ⟨r, p, ports, routes, hstands, ho, hr, rfl⟩
  · exact .nowhere hstands (by simp [Registry.get?_put])
  · exact .elsewhere hstands (by simp [Registry.get?_put])
  · obtain ⟨d, hd⟩ := hport r hstands
    rw [hd] at ho
    obtain ⟨rfl, hclaim⟩ := PortLedger.obtain_some_eq_ok ho
    obtain ⟨h0, -, howner⟩ := PortLedger.claim_eq_ok hclaim
    refine .here hstands hd h0 ?_ ?_ (DispatchTable.at?_of_withIngress hr).1 ?_
    · simp [howner]
    · exact Runner.isEntered_enter.congr rfl rfl (fun _ hv => hv) id
    · simp [Registry.get?_put]

/-- Compiling a service leaves every other one shown. -/
theorem Shows.of_compileService (hshows : st.Shows c name s) (hne : other ≠ name)
    (h : compileService c st other s' = .ok st') : st'.Shows c name s := by
  have hput : ∀ {α : Type} (m : Registry α) (v : α), (m.put other v).get? name = m.get? name :=
    fun m v => by rw [Registry.get?_put, if_neg hne]
  rcases compileService_cases h with ⟨why, -, rfl⟩ | ⟨url, -, rfl⟩ |
    ⟨r', q, ports, routes, -, ho, hr, rfl⟩
  · cases hshows with
    | here hstands hd h0 howner hentered hrouted hendpoint =>
      exact .here hstands hd h0 howner (hentered.congr rfl rfl (fun _ hv => hv) id) hrouted
        hendpoint
    | elsewhere hstands hendpoint => exact .elsewhere hstands hendpoint
    | nowhere hstands hfailure => exact .nowhere hstands ((hput _ _).trans hfailure)
  · cases hshows with
    | here hstands hd h0 howner hentered hrouted hendpoint =>
      exact .here hstands hd h0 howner (hentered.congr rfl rfl (fun _ hv => hv) id) hrouted
        ((hput _ _).trans hendpoint)
    | elsewhere hstands hendpoint => exact .elsewhere hstands ((hput _ _).trans hendpoint)
    | nowhere hstands hfailure => exact .nowhere hstands hfailure
  · obtain ⟨-, hown, howner'⟩ := PortLedger.obtain_eq_ok ho
    have hkeeps := PortLedger.keeps_of_owner? hown howner'
    cases hshows with
    | here hstands hd h0 howner hentered hrouted hendpoint =>
      refine .here hstands hd h0 ?_ (hentered.congr ?_ ?_ ?_ ?_) (fun i hi => ?_)
        ((hput _ _).trans hendpoint)
      · simpa using hkeeps _ _ howner
      · exact Runner.container_enter_of_ne _ _ _ _ _ _ hne
      · exact Runner.process_enter_of_ne _ _ _ _ _ _ hne
      · exact fun v hv => Runner.mem_volumes_enter.2 (.inl hv)
      · intro hm
        simp [Runner.requiresMockServer_enter, hm]
      · exact (DispatchTable.at?_of_withIngress hr).2 _ _ _ (hrouted i hi) (by simpa using hne.symm)
    | elsewhere hstands hendpoint => exact .elsewhere hstands ((hput _ _).trans hendpoint)
    | nowhere hstands hfailure => exact .nowhere hstands (by simpa using hfailure)

/-- A service that is not on the workstation claims no port. -/
theorem claimDeclared_of_not_here (l : PortLedger)
    (h : ∀ r, s.standing name c.mode ≠ some (.here r)) :
    claimDeclared c.mode l name s = .ok l := by
  unfold claimDeclared
  rcases ha : activeRunner c.mode name s with e | r
  · rfl
  · rcases hd : r.declaredPort with _ | p
    · simp only [hd]
    · exact absurd (standing_of_activeRunner ha (Runner.isRemote_of_declaredPort hd)) (h r)

theorem Shows.claimDeclared_eq_self (hshows : st.Shows c name s) :
    claimDeclared c.mode st.ports name s = .ok st.ports := by
  cases hshows with
  | here hstands hd h0 howner =>
    obtain ⟨ha, -⟩ := activeRunner_of_standing hstands
    simp only [claimDeclared, ha, hd, PortLedger.claim_eq_self h0 howner]
  | elsewhere hstands | nowhere hstands =>
    exact claimDeclared_of_not_here _ fun r hr => by cases hstands.symm.trans hr

theorem Shows.compileService_eq_self (hshows : st.Shows c name s) :
    compileService c st name s = .ok st := by
  cases hshows with
  | @here r p hstands hd h0 howner hentered hrouted hendpoint =>
    have hobtain : st.ports.obtain name (some p) = .ok (p, st.ports) := by
      simp only [PortLedger.obtain, PortLedger.claim_eq_self h0 howner, Except.map]
    rw [compileService_of_here hstands, hd, hobtain]
    simp only [DispatchTable.withIngress_eq_self hrouted, Except.map, hentered.enter_eq_self,
      Registry.put_eq_self hendpoint]
  | elsewhere hstands hendpoint =>
    rw [compileService_of_elsewhere hstands, Registry.put_eq_self hendpoint]
  | nowhere hstands hfailure =>
    rw [compileService_of_nowhere hstands, Registry.put_eq_self hfailure]

/-! ## All services -/

theorem services_compileRunners (h : st.compileRunners c = .ok st') :
    st'.services = st.services := by
  obtain ⟨ports, -, hc⟩ := compileRunners_eq_ok h
  exact foldlM_induction (P := fun a => a.services = st.services) rfl
    (fun _ _ _ _ ha hstep => (services_compileService hstep).trans ha) hc

theorem shows_compileRunners (hports : DeclarePorts st.services c.mode)
    (h : st.compileRunners c = .ok st') :
    ∀ e ∈ st.services.entries, st'.Shows c e.1 e.2 := by
  obtain ⟨ports, -, hc⟩ := compileRunners_eq_ok h
  have hmake : ∀ e ∈ st.services.entries, ∀ a a', compileService c a e.1 e.2 = .ok a' →
      a'.Shows c e.1 e.2 := fun e he a a' hstep =>
    shows_compileService (fun r hr => hports e.1 e.2 r ⟨Registry.get?_eq_some_iff.2 he, hr⟩) hstep
  refine foldlM_forall (Q := fun e a => a.Shows c e.1 e.2) hmake ?_ hc
  intro x hx y hy a a' hshows hstep
  by_cases hn : x.1 = y.1
  · obtain rfl := List.inj_on_of_nodup_map st.services.nodup hx hy hn
    exact hmake x hx a a' hstep
  · exact hshows.of_compileService hn hstep

/-- Where the active runner of every service on the workstation declares its port, compiling all
services once more succeeds and leaves the state as it is. -/
theorem compileRunners_again
    (hports : ∀ n s r, st.services.get? n = some s → activeRunner c.mode n s = .ok r →
      r.isRemote = false → ∃ p, r.declaredPort = some p)
    (h : st.compileRunners c = .ok st') : st'.compileRunners c = .ok st' := by
  have hdeclare : DeclarePorts st.services c.mode := fun n s r hh =>
    let ⟨ha, hr⟩ := activeRunner_of_standing hh.stands
    hports n s r hh.service ha hr
  have hshows := shows_compileRunners hdeclare h
  rw [← services_compileRunners h] at hshows
  have hclaims : st'.services.entries.foldlM (fun l e => claimDeclared c.mode l e.1 e.2) st'.ports =
      .ok st'.ports := foldlM_eq_self fun e he => (hshows e he).claimDeclared_eq_self
  have hcompiled : st'.services.entries.foldlM
      (fun st e => LocalTopology.compileService c st e.1 e.2) st' = .ok st' :=
    foldlM_eq_self fun e he => (hshows e he).compileService_eq_self
  unfold compileRunners
  rw [hclaims]
  exact hcompiled

/-- Two services share a host, a container has a volume, and of two remote services one has no
address. -/
theorem compileRunners_again_mixed :
    let c : Context :=
      { mode := .remote "dev", workDirectory := "/work", home := ⟨"/home"⟩, proxyPort := 1347 }
    let db : Service :=
      { ingress := some ⟨"app.workleap.localhost", "/db/"⟩,
        runners := [.container { image := "db", containerPort := 5432, hostPort := some 5432,
                                 volumes := ["data:/data"] }] }
    let api : Service :=
      { ingress := some ⟨"App.workleap.localhost", "/"⟩,
        runners := [.project { project := "api", port := some 5001 }] }
    let docs : Service := { runners := [.mock { specification := "docs.yml", port := some 4000 }] }
    let crm : Service :=
      { runners := [.remote { environments := .ofList [("dev", "https://crm.dev/")] }] }
    let old : Service := { runners := [.remote {}] }
    let start : BuildState :=
      { services := .ofList
          [("db", db), ("api", api), ("docs", docs), ("crm", crm), ("old", old)] }
    ∃ st, start.compileRunners c = .ok st ∧
      st.routes.routes.map Route.service = ["db", "api"] ∧
      st.endpoints.keys = ["db", "api", "docs", "crm"] ∧ st.failures.keys = ["old"] ∧
      st.compileRunners c = .ok st := by
  intro c db api docs crm old start
  have hports : ∀ n s r, start.services.get? n = some s → activeRunner c.mode n s = .ok r →
      r.isRemote = false → ∃ p, r.declaredPort = some p := by
    intro n s r hs ha hr
    have hmem : (n, s) ∈ [("db", db), ("api", api), ("docs", docs), ("crm", crm), ("old", old)] :=
      Registry.get?_eq_some_iff.1 hs
    simp only [List.mem_cons, Prod.mk.injEq, List.not_mem_nil, or_false] at hmem
    rcases hmem with ⟨rfl, rfl⟩ | ⟨rfl, rfl⟩ | ⟨rfl, rfl⟩ | ⟨rfl, rfl⟩ | ⟨rfl, rfl⟩ <;> cases ha
    · exact ⟨5432, rfl⟩
    · exact ⟨5001, rfl⟩
    · exact ⟨4000, rfl⟩
    · cases hr
    · cases hr
  obtain ⟨st, h, hroutes, hendpoints, hfailures⟩ : ∃ st, start.compileRunners c = .ok st ∧
      st.routes.routes.map Route.service = ["db", "api"] ∧
      st.endpoints.keys = ["db", "api", "docs", "crm"] ∧ st.failures.keys = ["old"] :=
    ⟨_, rfl, by decide, by decide, by decide⟩
  exact ⟨st, h, hroutes, hendpoints, hfailures, compileRunners_again hports h⟩

end BuildState

end LocalTopology
