import LocalTopology.Proofs.Clashing

/-!
# When fragments make a graph

A service is declared in several fragments, and whether it is complete depends on what all of them
settle on: a host from one, a path from another and a runner from a third make a valid service
(`ServiceFragment.AreValid`). Declarations that are not valid have one offence, the first in the
order of the checks (`ServiceFragment.Offend`). Fragments make a graph exactly if one of them has a
name and the declarations of each service are valid, and otherwise the first service with an offence
decides the fault (`Fragment.complete_eq_error_iff`).
-/

namespace LocalTopology

namespace ServiceFragment

/-! ## Validity -/

section Declarations

variable (ds : List ServiceFragment)

/-- Some declaration has a runner. -/
def HaveRunner : Prop := ∃ d ∈ ds, d.runners ≠ []

/-- Some declaration has an ingress. -/
def HaveIngress : Prop := ∃ d ∈ ds, d.ingress ≠ none

/-- The last host that is set. -/
def lastHost : Option String := lastSet ((ds.filterMap (·.ingress)).map (·.host))

/-- The last path that is set, or else the default. -/
def lastPath : String := (lastSet ((ds.filterMap (·.ingress)).map (·.path))).getD "/"

/-- The last path to poll that is set. -/
def lastHealthcheck : Option String := lastSet (ds.map (·.healthcheck))

/-- An ingress that is declared is at an accepted host and under a path that starts with a slash. -/
def AreRoutable : Prop :=
  HaveIngress ds → ∃ host, lastHost ds = some host ∧ Hostname.isAccepted host = true ∧
    Text.startsWith "/" (lastPath ds) = true

/-- The declarations of one name make a service. -/
structure AreValid : Prop where
  runner : HaveRunner ds
  routable : AreRoutable ds
  polled : ∀ path, lastHealthcheck ds = some path → Text.startsWith "/" path = true

/-- The declarations of a name make no service, for the reason that is found first. -/
inductive Offend (name : String) : ConfigFault → Prop
  | noRunners (none : ¬ HaveRunner ds) : Offend name (.noRunners name)
  | noIngressHost (runner : HaveRunner ds) (ingress : HaveIngress ds)
    (unset : lastHost ds = none) : Offend name (.noIngressHost name)
  | refusedHost (runner : HaveRunner ds) {host : String} (set : lastHost ds = some host)
    (refused : Hostname.isAccepted host = false) : Offend name (.refusedHost name host)
  | ingressPath (runner : HaveRunner ds) {host : String} (set : lastHost ds = some host)
    (accepted : Hostname.isAccepted host = true)
    (noSlash : Text.startsWith "/" (lastPath ds) = false) :
    Offend name (.ingressPath name (lastPath ds))
  | healthcheckPath (runner : HaveRunner ds) (routable : AreRoutable ds) {path : String}
    (set : lastHealthcheck ds = some path) (noSlash : Text.startsWith "/" path = false) :
    Offend name (.healthcheckPath name path)

variable {ds}

theorem areValid_or_offend (name : String) : AreValid ds ∨ ∃ fault, Offend ds name fault := by
  by_cases hr : HaveRunner ds
  swap
  · exact .inr ⟨_, .noRunners hr⟩
  by_cases hi : AreRoutable ds
  · rcases hh : lastHealthcheck ds with _ | path
    · exact .inl ⟨hr, hi, by simp [hh]⟩
    · rcases hs : Text.startsWith "/" path
      · exact .inr ⟨_, .healthcheckPath hr hi hh hs⟩
      · refine .inl ⟨hr, hi, fun q hq => ?_⟩
        cases hh.symm.trans hq
        exact hs
  · obtain ⟨hi, hno⟩ := Classical.not_imp.1 hi
    rcases hh : lastHost ds with _ | host
    · exact .inr ⟨_, .noIngressHost hr hi hh⟩
    · rcases ha : Hostname.isAccepted host
      · exact .inr ⟨_, .refusedHost hr hh ha⟩
      · rcases hs : Text.startsWith "/" (lastPath ds)
        · exact .inr ⟨_, .ingressPath hr hh ha hs⟩
        · exact absurd ⟨host, hh, ha, hs⟩ hno

/-! ## What the declarations settle on -/

theorem runners_mergeAll_eq_nil_iff : (mergeAll ds).runners = [] ↔ ¬ HaveRunner ds := by
  have htargets := map_target_addRunners (ds.flatMap (·.runners))
  rw [← runners_mergeAll] at htargets
  have hnil : (mergeAll ds).runners = [] ↔ ds.flatMap (·.runners) = [] := by
    rw [← List.map_eq_nil_iff (f := Runner.target), htargets, List.eq_nil_iff_forall_not_mem]
    simp only [List.mem_eraseDups]
    rw [← List.eq_nil_iff_forall_not_mem, List.map_eq_nil_iff]
  rw [hnil, List.flatMap_eq_nil_iff]
  simp [HaveRunner]

theorem ingress_mergeAll_eq_some (h : HaveIngress ds) : (mergeAll ds).ingress =
    some ⟨lastHost ds, lastSet ((ds.filterMap (·.ingress)).map (·.path))⟩ := by
  have hfields := ingress_mergeAll ds
  rcases hi : (mergeAll ds).ingress with _ | i
  · rw [ingress_mergeAll_eq_none_iff, List.filterMap_eq_nil_iff] at hi
    obtain ⟨d, hd, hne⟩ := h
    exact absurd (hi d hd) hne
  · rw [hi, Option.getD_some] at hfields
    rw [hfields, lastHost]

theorem ingress_mergeAll_eq_none (h : ¬ HaveIngress ds) : (mergeAll ds).ingress = none := by
  rw [ingress_mergeAll_eq_none_iff, List.filterMap_eq_nil_iff]
  intro d hd
  by_contra hne
  exact h ⟨d, hd, hne⟩

/-! ## Completing a service -/

theorem exists_complete_of_areValid (name : String) (h : AreValid ds) :
    ∃ s, (mergeAll ds).complete name = .ok s := by
  have hr : (mergeAll ds).runners ≠ [] := fun hnil => runners_mergeAll_eq_nil_iff.1 hnil h.runner
  have hp : ∀ path, (mergeAll ds).healthcheck = some path → Text.startsWith "/" path = true := by
    rw [healthcheck_mergeAll]
    exact h.polled
  by_cases hi : HaveIngress ds
  · obtain ⟨host, hhost, haccepted, hpath⟩ := h.routable hi
    refine ⟨{ ingress := some ⟨host, lastPath ds⟩, runners := (mergeAll ds).runners,
              healthcheck := (mergeAll ds).healthcheck },
      complete_eq_ok_iff.2 ⟨hr, ?_, hp, rfl, rfl, rfl⟩⟩
    rw [ingress_mergeAll_eq_some hi]
    exact .some (IngressFragment.complete_eq_ok_iff.2 ⟨hhost, haccepted, rfl, hpath⟩)
  · refine ⟨{ runners := (mergeAll ds).runners, healthcheck := (mergeAll ds).healthcheck },
      complete_eq_ok_iff.2 ⟨hr, ?_, hp, rfl, rfl, rfl⟩⟩
    rw [ingress_mergeAll_eq_none hi]
    exact .none

theorem haveIngress_of_lastHost {host : String} (h : lastHost ds = some host) : HaveIngress ds := by
  obtain ⟨i, hi, -⟩ := List.mem_map.1 (mem_of_lastSet h)
  obtain ⟨d, hd, hdi⟩ := List.mem_filterMap.1 hi
  exact ⟨d, hd, by simp [hdi]⟩

theorem complete_of_ingress_eq_error {f : ServiceFragment} {i : IngressFragment} {name : String}
    {fault : ConfigFault} (hr : f.runners ≠ []) (hi : f.ingress = some i)
    (h : i.complete name = .error fault) : f.complete name = .error fault := by
  have hr' : f.runners.isEmpty = false := by simpa using hr
  unfold complete
  simp only [hr', hi, h, bind, Except.bind, Functor.map, Except.map]
  rw [if_neg (by simp)]

theorem complete_of_healthcheck {f : ServiceFragment} {name path : String} (hr : f.runners ≠ [])
    (hi : ∀ i, f.ingress = some i → ∃ g, i.complete name = .ok g)
    (hh : f.healthcheck = some path) (hs : Text.startsWith "/" path = false) :
    f.complete name = .error (.healthcheckPath name path) := by
  have hr' : f.runners.isEmpty = false := by simpa using hr
  unfold complete
  rcases hf : f.ingress with _ | i
  · simp [hr', hh, hs, bind, Except.bind, pure, Except.pure]
  · obtain ⟨g, hg⟩ := hi i hf
    simp [hr', hg, hh, hs, bind, Except.bind, Functor.map, Except.map]

theorem complete_of_offend {name : String} {fault : ConfigFault} (h : Offend ds name fault) :
    (mergeAll ds).complete name = .error fault := by
  have hrunners : HaveRunner ds → (mergeAll ds).runners ≠ [] := fun hr hnil =>
    runners_mergeAll_eq_nil_iff.1 hnil hr
  cases h with
  | noRunners hnone =>
    unfold complete
    rw [runners_mergeAll_eq_nil_iff.2 hnone]
    rfl
  | noIngressHost hr hi hunset =>
    refine complete_of_ingress_eq_error (hrunners hr) (ingress_mergeAll_eq_some hi) ?_
    rw [hunset]
    rfl
  | refusedHost hr hset hrefused =>
    refine complete_of_ingress_eq_error (hrunners hr)
      (ingress_mergeAll_eq_some (haveIngress_of_lastHost hset)) ?_
    rw [hset]
    simp [IngressFragment.complete, checkHost, hrefused, bind, Except.bind]
  | ingressPath hr hset haccepted hs =>
    refine complete_of_ingress_eq_error (hrunners hr)
      (ingress_mergeAll_eq_some (haveIngress_of_lastHost hset)) ?_
    rw [hset]
    simp only [IngressFragment.complete, checkHost, haccepted, if_true, bind, Except.bind]
    rw [if_neg (by simpa [lastPath, Ingress.defaultPath] using hs)]
    rfl
  | healthcheckPath hr hroutable hset hs =>
    refine complete_of_healthcheck (hrunners hr) (fun i hi => ?_)
      ((healthcheck_mergeAll ds).trans hset) hs
    have hdeclared : HaveIngress ds := by
      by_contra hno
      cases hi.symm.trans (ingress_mergeAll_eq_none hno)
    obtain ⟨host, hhost, haccepted, hpath⟩ := hroutable hdeclared
    obtain rfl := Option.some.inj (hi.symm.trans (ingress_mergeAll_eq_some hdeclared))
    exact ⟨⟨host, lastPath ds⟩,
      IngressFragment.complete_eq_ok_iff.2 ⟨hhost, haccepted, rfl, hpath⟩⟩

theorem exists_complete_mergeAll_iff {name : String} :
    (∃ s, (mergeAll ds).complete name = .ok s) ↔ AreValid ds := by
  refine ⟨fun ⟨s, hs⟩ => ?_, exists_complete_of_areValid name⟩
  rcases areValid_or_offend name with h | ⟨fault, h⟩
  · exact h
  · cases hs.symm.trans (complete_of_offend h)

theorem complete_mergeAll_eq_error_iff {name : String} {fault : ConfigFault} :
    (mergeAll ds).complete name = .error fault ↔ Offend ds name fault := by
  refine ⟨fun he => ?_, complete_of_offend⟩
  rcases areValid_or_offend name with h | ⟨fault', h⟩
  · obtain ⟨s, hs⟩ := exists_complete_of_areValid name h
    cases hs.symm.trans he
  · cases he.symm.trans (complete_of_offend h)
    exact h

end Declarations

end ServiceFragment

/-! ## Completing a graph -/

/-- The declarations of a name, in the order of the fragments. -/
def declarations (fs : List Fragment) (name : String) : List ServiceFragment :=
  fs.filterMap (·.services.get? name)

/-- The declared names, in the order of their first declarations. -/
def declaredNames (fs : List Fragment) : List String :=
  (fs.flatMap (·.services.keys)).eraseDups

/-- Some fragment has a name that is not blank. -/
def HaveName (fs : List Fragment) : Prop :=
  ∃ f ∈ fs, ∃ name, f.name = some name ∧ Text.isAllBlank name = false

namespace Fragment

variable {fs : List Fragment}

theorem entries_mergeAll (fs : List Fragment) : (mergeAll fs).services.entries =
    (declaredNames fs).map fun name => (name, ServiceFragment.mergeAll (declarations fs name)) := by
  rw [declaredNames, ← keys_mergeAll]
  exact Registry.entries_eq_map_keys fun name s hs => get?_mergeAll hs

theorem exists_name_mergeAll_iff : (∃ name, (mergeAll fs).name = some name) ↔ HaveName fs := by
  have hnamed : HaveName fs ↔
      ∃ name, some name ∈ fs.map fun f => f.name.filter fun n => !Text.isAllBlank n := by
    simp only [HaveName, List.mem_map, Option.filter_eq_some_iff, Bool.not_eq_true']
    constructor
    · rintro ⟨f, hf, name, hname, hblank⟩
      exact ⟨name, f, hf, hname, hblank⟩
    · rintro ⟨name, f, hf, hname, hblank⟩
      exact ⟨f, hf, name, hname, hblank⟩
  rw [name_mergeAll, hnamed]
  constructor
  · rintro ⟨name, h⟩
    exact ⟨name, mem_of_lastSet h⟩
  · rintro ⟨name, h⟩
    rw [lastSet, ← Option.isSome_iff_exists, Option.isSome_iff_ne_none, ne_eq,
      List.getLast?_eq_none_iff]
    exact List.ne_nil_of_mem (List.mem_filterMap.2 ⟨some name, h, rfl⟩)

theorem complete_eq_error_iff {fault : ConfigFault} : (mergeAll fs).complete = .error fault ↔
    (¬ HaveName fs ∧ fault = .unnamed) ∨
      (HaveName fs ∧ ∃ before name after, declaredNames fs = before ++ name :: after ∧
        (∀ n ∈ before, ServiceFragment.AreValid (declarations fs n)) ∧
          ServiceFragment.Offend (declarations fs name) name fault) := by
  rw [← exists_name_mergeAll_iff]
  have hentries : (∃ before name after, declaredNames fs = before ++ name :: after ∧
      (∀ n ∈ before, ServiceFragment.AreValid (declarations fs n)) ∧
        ServiceFragment.Offend (declarations fs name) name fault) ↔
      (mergeAll fs).services.traverse (fun name s => s.complete name) = .error fault := by
    rw [OrderedMap.traverse_eq_error_iff, entries_mergeAll]
    constructor
    · rintro ⟨before, name, after, hnames, hvalid, hoffend⟩
      refine ⟨_, _, _, by rw [hnames, List.map_append, List.map_cons], ?_,
        ServiceFragment.complete_of_offend hoffend⟩
      simp only [List.forall_mem_map]
      exact fun n hn => ServiceFragment.exists_complete_of_areValid n (hvalid n hn)
    · rintro ⟨before, e, after, hentries, hvalid, hoffend⟩
      obtain ⟨names, rest, hnames, rfl, hrest⟩ := List.map_eq_append_iff.1 hentries
      obtain ⟨name, names', rfl, rfl, rfl⟩ := List.map_eq_cons_iff.1 hrest
      simp only [List.forall_mem_map] at hvalid
      exact ⟨names, name, names', hnames,
        fun n hn => ServiceFragment.exists_complete_mergeAll_iff.1 (hvalid n hn),
        ServiceFragment.complete_mergeAll_eq_error_iff.1 hoffend⟩
  rw [hentries]
  unfold complete
  rcases (mergeAll fs).name with _ | name
  · simp [eq_comm]
  · simp only [bind, Except.bind, pure, Except.pure]
    generalize (mergeAll fs).services.traverse (fun name s => s.complete name) = completed
    rcases completed with fault' | services <;> simp

theorem exists_complete_iff : (∃ g, (mergeAll fs).complete = .ok g) ↔
    HaveName fs ∧ ∀ name ∈ declaredNames fs,
      ServiceFragment.AreValid (declarations fs name) := by
  constructor
  · rintro ⟨g, hg⟩
    obtain ⟨hname, hservices, -⟩ := complete_eq_ok_iff.1 hg
    refine ⟨exists_name_mergeAll_iff.1 ⟨_, hname⟩, fun name hn => ?_⟩
    rw [declaredNames, ← keys_mergeAll, ← Registry.keys_traverse hservices] at hn
    obtain ⟨s, hs⟩ := Registry.mem_keys_iff.1 hn
    obtain ⟨f, hf, hc⟩ := Registry.get?_traverse hservices hs
    exact ServiceFragment.exists_complete_mergeAll_iff.1 ⟨s, get?_mergeAll hf ▸ hc⟩
  · rintro ⟨hname, hvalid⟩
    rcases hc : (mergeAll fs).complete with fault | g
    · rcases complete_eq_error_iff.1 hc with ⟨hno, -⟩ | ⟨-, before, name, after, hnames, -, hoffend⟩
      · exact absurd hname hno
      · obtain ⟨s, hs⟩ := ServiceFragment.exists_complete_of_areValid name
          (hvalid name (by simp [hnames]))
        cases hs.symm.trans (ServiceFragment.complete_of_offend hoffend)
    · exact ⟨g, rfl⟩

end Fragment

/-! ## Fragments, and the check before compiling -/

/-- Fragments make a graph exactly if one of them has a name and the declarations of every service
are valid, whichever fragments they come from. Otherwise the fault is that there is no name, or the
offence of the first service that has one. The check of the ingresses finds nothing in the services
of a graph, with any dependencies beside them. -/
theorem ofFragments_iff_areValid (fs : List Fragment) :
    ((∃ g, Graph.ofFragments fs = .ok g) ↔ HaveName fs ∧ ∀ name ∈ declaredNames fs,
      ServiceFragment.AreValid (declarations fs name)) ∧
    (∀ fault, Graph.ofFragments fs = .error fault ↔
      (¬ HaveName fs ∧ fault = .unnamed) ∨
        (HaveName fs ∧ ∃ before name after, declaredNames fs = before ++ name :: after ∧
          (∀ n ∈ before, ServiceFragment.AreValid (declarations fs n)) ∧
            ServiceFragment.Offend (declarations fs name) name fault)) ∧
    ∀ g, Graph.ofFragments fs = .ok g → ∀ c ds offers st t t',
      Step.run c { g with dependencies := ds } (.ofGraph g offers) t .expandDependencies =
        (.ok st, t') →
      Step.run c { g with dependencies := ds } st t' .validateIngress = (.ok st, t') := by
  refine ⟨Fragment.exists_complete_iff, fun _ => Fragment.complete_eq_error_iff, ?_⟩
  intro g hg c ds offers st t t' h
  have hsound : Graph.Sound { g with dependencies := ds } := by
    obtain ⟨hdeclared, hrunners, haccepted⟩ := Graph.sound_of_ofFragments hg
    exact ⟨hdeclared, hrunners, haccepted⟩
  obtain ⟨services, hd, rfl⟩ := BuildState.expandDependencies_eq_ok (congrArg Prod.fst h)
  exact Prod.ext (BuildState.validateIngress_expanded hsound hd offers) rfl

/-- A host, a path and a runner from three fragments, and an empty declaration among them. -/
theorem ofFragments_iff_areValid_three :
    let fs : List Fragment :=
      [ { name := some "shop",
          services := .ofList
            [("api", { ingress := some { host := some "api.workleap.localhost" } })] },
        { services := .ofList
            [("api", { ingress := some { path := some "/v1" }, healthcheck := some "/up" }),
              ("web", {})] },
        { name := some " ",
          services := .ofList
            [("web", { runners := [.mock { specification := "web.yml" }] }),
              ("api", { runners := [.mock { specification := "api.yml" }] })] }]
    let c : Context := { workDirectory := "/work", home := ⟨"/home"⟩, proxyPort := 1347 }
    HaveName fs ∧ (∀ name ∈ declaredNames fs, ServiceFragment.AreValid (declarations fs name)) ∧
      ∃ g st, Graph.ofFragments fs = .ok g ∧
        Step.run c { g with dependencies := [.redis] } (.ofGraph g []) {} .expandDependencies =
          (.ok st, {}) ∧ "redis" ∈ st.services.keys ∧
        Step.run c { g with dependencies := [.redis] } st {} .validateIngress = (.ok st, {}) := by
  intro fs c
  obtain ⟨hiff, -, hstep⟩ := ofFragments_iff_areValid fs
  obtain ⟨g, hg⟩ : ∃ g, Graph.ofFragments fs = .ok g := ⟨_, rfl⟩
  obtain ⟨hname, hvalid⟩ := hiff.1 ⟨g, hg⟩
  obtain ⟨st, hst, hkeys⟩ : ∃ st, Step.run c { g with dependencies := [.redis] } (.ofGraph g []) {}
      .expandDependencies = (.ok st, {}) ∧ "redis" ∈ st.services.keys := by
    cases hg
    exact ⟨_, rfl, by decide⟩
  exact ⟨hname, hvalid, g, st, hg, hst, hkeys, hstep g hg c [.redis] [] st {} {} hst⟩

end LocalTopology
