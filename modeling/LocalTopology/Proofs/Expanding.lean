import LocalTopology.Build.Step
import LocalTopology.Proofs.Absorbing
import LocalTopology.Proofs.Loops
import LocalTopology.Proofs.Maps

/-!
# Expanding dependencies

Dependencies are expanded one after another, each into a service unless its name has one. A name
that has a service keeps it, and any other has the service of a dependency if one has that name
(`get?_expanded`). Nothing fails unless a name of a dependency has a service that does not provide
it (`exists_expanded_iff`), and new services come behind the others (`entries_expanded`). A
dependency that has been expanded changes nothing when it is listed again
(`expandDependency_of_mem`), so neither do repetitions nor a second expansion.
-/

namespace LocalTopology

theorem Dependency.eq_of_serviceName_eq {d d' : Dependency}
    (h : d.blueprint.serviceName = d'.blueprint.serviceName) : d = d' := by
  cases d <;> cases d' <;> first | rfl | exact absurd h (by decide)

/-- The service that provides one of several dependencies under a name. -/
def providedBy (ds : List Dependency) (name : String) : Option Service :=
  (ds.find? fun d => d.blueprint.serviceName == name).map Dependency.service

theorem providedBy_eq_some_iff {ds : List Dependency} {name : String} {s : Service} :
    providedBy ds name = some s ↔ ∃ d ∈ ds, d.blueprint.serviceName = name ∧ d.service = s := by
  rw [providedBy, Option.map_eq_some_iff]
  constructor
  · rintro ⟨d, hd, rfl⟩
    exact ⟨d, List.mem_of_find?_eq_some hd, by simpa using List.find?_some hd, rfl⟩
  · rintro ⟨d, hd, rfl, rfl⟩
    rcases hf : ds.find? fun d' => d'.blueprint.serviceName == d.blueprint.serviceName with _ | d'
    · exact absurd (List.find?_eq_none.1 hf d hd) (by simp)
    · have hname : d'.blueprint.serviceName = d.blueprint.serviceName := by
        simpa using List.find?_some hf
      exact ⟨d', hf, by rw [Dependency.eq_of_serviceName_eq hname]⟩

theorem providedBy_perm {ds ds' : List Dependency} (h : ds.Perm ds') (name : String) :
    providedBy ds name = providedBy ds' name := by
  refine Option.ext fun s => ?_
  rw [providedBy_eq_some_iff, providedBy_eq_some_iff]
  simp only [h.mem_iff]

section Expanding

variable {services services' : Registry Service} {d : Dependency} {ds : List Dependency}

theorem get?_expandDependency (h : expandDependency services d = .ok services') (n : String) :
    services'.get? n =
      (services.get? n <|> if d.blueprint.serviceName = n then some d.service else none) := by
  unfold expandDependency at h
  rcases hd : services.get? d.blueprint.serviceName with _ | s <;> simp only [hd] at h
  · cases h
    rw [Registry.get?_put]
    by_cases hn : d.blueprint.serviceName = n
    · rw [if_pos hn, if_pos hn, ← hn, hd]
      rfl
    · rw [if_neg hn, if_neg hn]
      cases services.get? n <;> rfl
  · split_ifs at h
    cases h
    by_cases hn : d.blueprint.serviceName = n
    · rw [← hn, hd]
      rfl
    · rw [if_neg hn]
      cases services.get? n <;> rfl

/-- A name that has a service keeps it, and any other has that of a dependency, if there is one. -/
theorem get?_expanded (h : ds.foldlM expandDependency services = .ok services') (n : String) :
    services'.get? n = (services.get? n <|> providedBy ds n) := by
  induction ds generalizing services with
  | nil =>
    cases h
    cases services'.get? n <;> rfl
  | cons d ds ih =>
    rw [List.foldlM_cons] at h
    rcases hd : expandDependency services d with e | m <;> rw [hd] at h
    · cases h
    · rw [ih h, get?_expandDependency hd]
      simp only [providedBy, List.find?_cons]
      by_cases hn : d.blueprint.serviceName = n
      · simp only [hn, if_true, beq_self_eq_true]
        cases services.get? n <;> rfl
      · rw [if_neg hn, beq_eq_false_iff_ne.2 hn]
        cases services.get? n <;> rfl

theorem get?_expandedDependencies (h : ds.foldlM expandDependency services = .ok services')
    {n : String} {s : Service} (hs : services.get? n = some s) : services'.get? n = some s := by
  rw [get?_expanded h, hs]
  rfl

/-- Whatever has the name of a dependency provides it. -/
def Expandable (services : Registry Service) (ds : List Dependency) : Prop :=
  ∀ d ∈ ds, ∀ s, services.get? d.blueprint.serviceName = some s → s.origin = .dependency d

theorem exists_expandDependency_iff : (∃ m, expandDependency services d = .ok m) ↔
    ∀ s, services.get? d.blueprint.serviceName = some s → s.origin = .dependency d := by
  unfold expandDependency
  rcases hs : services.get? d.blueprint.serviceName with _ | s
  · simp [hs]
  · by_cases ho : s.origin = .dependency d <;> simp [hs, ho]

theorem exists_expanded_iff :
    (∃ m, ds.foldlM expandDependency services = .ok m) ↔ Expandable services ds := by
  induction ds generalizing services with
  | nil => exact iff_of_true ⟨services, rfl⟩ fun d hd => absurd hd List.not_mem_nil
  | cons d ds ih =>
    rw [List.foldlM_cons]
    have hfirst := @exists_expandDependency_iff services d
    rcases hd : expandDependency services d with e | m
    · rw [hd] at hfirst
      refine iff_of_false (by rintro ⟨m, ⟨⟩⟩) fun hall => ?_
      obtain ⟨m, hm⟩ := hfirst.2 (hall d List.mem_cons_self)
      cases hm
    · refine ih.trans ?_
      have hget := get?_expandDependency hd
      constructor
      · intro hall d' hd' s hs
        rcases List.mem_cons.1 hd' with rfl | hd'
        · exact hfirst.1 ⟨m, hd⟩ s hs
        · exact hall d' hd' s (by rw [hget, hs]; rfl)
      · intro hall d' hd' s hs
        rw [hget] at hs
        rcases hs' : services.get? d'.blueprint.serviceName with _ | s' <;> rw [hs'] at hs
        · -- The name was free, so the service is that of a dependency of the same name.
          by_cases hn : d.blueprint.serviceName = d'.blueprint.serviceName
          · obtain rfl := Dependency.eq_of_serviceName_eq hn
            simp only [if_true] at hs
            cases hs
            rfl
          · simp [hn] at hs
        · cases hs
          exact hall d' (List.mem_cons_of_mem _ hd') _ hs'

/-- No declared service has the name of a dependency, since none provides one. -/
theorem get?_eq_none_of_expanded
    (hdeclared : ∀ n s, services.get? n = some s → s.origin = .declared)
    (h : ds.foldlM expandDependency services = .ok services') (hd : d ∈ ds) :
    services.get? d.blueprint.serviceName = none := by
  refine Option.eq_none_iff_forall_ne_some.2 fun s hs => ?_
  have ho := exists_expanded_iff.1 ⟨services', h⟩ d hd s hs
  rw [hdeclared _ s hs] at ho
  cases ho

/-- The listed dependencies whose names have no service, in the order of their first listing. -/
def newcomers (services : Registry Service) (ds : List Dependency) : List Dependency :=
  ds.eraseDups.filter fun d => d.blueprint.serviceName ∉ services.keys

theorem newcomers_concat (services : Registry Service) (ds : List Dependency) (d : Dependency) :
    newcomers services (ds ++ [d]) =
      if d ∈ ds ∨ d.blueprint.serviceName ∈ services.keys then newcomers services ds
      else newcomers services ds ++ [d] := by
  rw [newcomers, newcomers, eraseDups_concat]
  by_cases hd : d ∈ ds
  · rw [if_pos hd, if_pos (.inl hd)]
  · by_cases hn : d.blueprint.serviceName ∈ services.keys <;>
      simp [hd, hn, List.filter_append]

theorem expandDependency_of_mem (h : ds.foldlM expandDependency services = .ok services')
    (hd : d ∈ ds) : expandDependency services' d = .ok services' := by
  have hprovided : ∃ s, services'.get? d.blueprint.serviceName = some s ∧
      s.origin = .dependency d := by
    rw [get?_expanded h]
    rcases hs : services.get? d.blueprint.serviceName with _ | s
    · exact ⟨d.service, providedBy_eq_some_iff.2 ⟨d, hd, rfl, rfl⟩, rfl⟩
    · exact ⟨s, rfl, exists_expanded_iff.1 ⟨services', h⟩ d hd s hs⟩
  obtain ⟨s, hs, ho⟩ := hprovided
  simp only [expandDependency, hs, ho, if_true]

/-- The services that are there stay where they are, and the newcomers come behind them. -/
theorem entries_expanded (h : ds.foldlM expandDependency services = .ok services') :
    services'.entries = services.entries ++
      (newcomers services ds).map fun d => (d.blueprint.serviceName, d.service) := by
  induction ds using List.reverseRecOn generalizing services' with
  | nil =>
    cases h
    simp [newcomers]
  | append_singleton ds d ih =>
    rw [foldlM_concat] at h
    rcases hds : ds.foldlM expandDependency services with e | m <;> rw [hds] at h
    · cases h
    rw [Except.bind] at h
    have hm := get?_expanded hds d.blueprint.serviceName
    rw [newcomers_concat]
    by_cases hd : d ∈ ds
    · rw [if_pos (.inl hd), ← ih hds]
      cases (expandDependency_of_mem hds hd).symm.trans h
      rfl
    have hnone : providedBy ds d.blueprint.serviceName = none := by
      refine Option.eq_none_iff_forall_ne_some.2 fun s hs => hd ?_
      obtain ⟨d', hd', hname, -⟩ := providedBy_eq_some_iff.1 hs
      rwa [← Dependency.eq_of_serviceName_eq hname]
    rw [hnone, Option.orElse_eq_orElse, Option.orElse_eq_or, Option.or_none] at hm
    by_cases hn : d.blueprint.serviceName ∈ services.keys
    · -- The name had a service before, which stays as it is.
      obtain ⟨s, hs⟩ := Registry.mem_keys_iff.1 hn
      rw [if_pos (.inr hn), ← ih hds]
      simp only [expandDependency, hm, hs] at h
      split_ifs at h
      cases h
      rfl
    · have hfree : m.get? d.blueprint.serviceName = none := by
        refine Option.eq_none_iff_forall_ne_some.2 fun s hs => hn ?_
        exact Registry.mem_keys_iff.2 ⟨s, hm ▸ hs⟩
      simp only [expandDependency, hfree] at h
      cases h
      rw [if_neg (not_or.2 ⟨hd, hn⟩), List.map_append, ← List.append_assoc, ← ih hds]
      exact Entries.put_of_not_mem (OrderedMap.get?_eq_none_iff.1 hfree)

/-- Expanding does not see how often a dependency is listed. -/
theorem expanded_eraseDups (services : Registry Service) (ds : List Dependency) :
    ds.eraseDups.foldlM expandDependency services = ds.foldlM expandDependency services := by
  induction ds using List.reverseRecOn with
  | nil => rfl
  | append_singleton ds d ih =>
    rw [eraseDups_concat, foldlM_concat]
    split_ifs with hd
    · rw [ih]
      rcases hds : ds.foldlM expandDependency services with e | m
      · rfl
      · exact (expandDependency_of_mem hds hd).symm
    · rw [foldlM_concat, ih]

end Expanding

namespace BuildState

theorem expandDependencies_eq (st : BuildState) (g : Graph) : st.expandDependencies g =
    (g.dependencies.foldlM expandDependency st.services).map fun services =>
      { st with services } := by
  unfold expandDependencies
  rcases g.dependencies.foldlM expandDependency st.services with e | services <;> rfl

theorem expandDependencies_eq_ok {st st' : BuildState} {g : Graph}
    (h : st.expandDependencies g = .ok st') :
    ∃ services, g.dependencies.foldlM expandDependency st.services = .ok services ∧
      st' = { st with services } := by
  rw [expandDependencies_eq] at h
  rcases hd : g.dependencies.foldlM expandDependency st.services with e | services <;>
    rw [hd] at h <;> cases h
  exact ⟨services, rfl, rfl⟩

/-- Expanding fails only where the name of a listed dependency has a service that does not provide
it. Else it adds the newcomers behind the services that are there and changes nothing besides, a
second time it changes nothing at all, and it does not see how often a dependency is listed. -/
theorem expandDependencies_appends (st : BuildState) (g : Graph) :
    ((∃ e, st.expandDependencies g = .error e) ↔ ∃ d ∈ g.dependencies, ∃ s,
      st.services.get? d.blueprint.serviceName = some s ∧ s.origin ≠ .dependency d) ∧
    (∀ st', st.expandDependencies g = .ok st' →
      st' = { st with services := st'.services } ∧
      st'.services.entries = st.services.entries ++
        ((newcomers st.services g.dependencies).map fun d =>
          (d.blueprint.serviceName, d.service)) ∧
      st'.expandDependencies g = .ok st') ∧
    ∀ ds, ds.eraseDups = g.dependencies.eraseDups →
      st.expandDependencies { g with dependencies := ds } = st.expandDependencies g := by
  refine ⟨?_, fun st' h => ?_, fun ds hds => ?_⟩
  · have hok := @exists_expanded_iff st.services g.dependencies
    rw [expandDependencies_eq]
    rcases hd : g.dependencies.foldlM expandDependency st.services with e | services <;>
      rw [hd] at hok
    · refine iff_of_true ⟨e, rfl⟩ ?_
      have hnot : ¬ Expandable st.services g.dependencies := fun hall => by
        obtain ⟨m, hm⟩ := hok.2 hall
        cases hm
      simpa [Expandable] using hnot
    · refine iff_of_false (by rintro ⟨e, ⟨⟩⟩) ?_
      rintro ⟨d, hd, s, hs, ho⟩
      exact ho (hok.1 ⟨services, rfl⟩ d hd s hs)
  · obtain ⟨services, hd, rfl⟩ := expandDependencies_eq_ok h
    refine ⟨rfl, entries_expanded hd, ?_⟩
    have hagain := foldlM_eq_self fun d hmem => expandDependency_of_mem hd hmem
    rw [expandDependencies_eq, hagain]
    rfl
  · rw [expandDependencies_eq, expandDependencies_eq, ← expanded_eraseDups st.services ds, hds,
      expanded_eraseDups]

/-- One dependency has been expanded before, and the other is listed twice. -/
theorem expandDependencies_appends_repeated :
    let st : BuildState :=
      { services := .ofList
          [("redis", Dependency.redis.service),
            ("api", { runners := [.project { project := "api" }] })] }
    let g : Graph := { name := "shop", dependencies := [.mongo, .redis, .mongo] }
    ∃ st', st.expandDependencies g = .ok st' ∧
      st'.services.entries =
        st.services.entries ++ [("mongo", Dependency.mongo.service)] ∧
      st'.expandDependencies g = .ok st' := by
  intro st g
  obtain ⟨st', h⟩ : ∃ st', st.expandDependencies g = .ok st' := ⟨_, rfl⟩
  obtain ⟨-, hentries, hagain⟩ := (expandDependencies_appends st g).2.1 st' h
  exact ⟨st', h, hentries, hagain⟩

end BuildState

end LocalTopology
