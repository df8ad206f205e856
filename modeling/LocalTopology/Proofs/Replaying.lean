import LocalTopology.Proofs.Validity

/-!
# Merging the same fragments again

Every rule of merging looks at the declarations in order and lets either the first or the last of
them decide: the first one for the place of a service, a runner, a dependency or a variable, and the
last one for what stands there. So declarations that are repeated behind themselves change nothing:
not a field (`lastSet_replayed`, `stacked_replayed`), not a runner (`Runner.Unites.of_replayed`),
and not the order of anything (`eraseDups_replayed`). Fragments that are merged again therefore
leave the same graph, or the same fault (`ofFragments_replayed`).
-/

namespace LocalTopology

/-! ## Lists -/

section Lists

variable {α : Type}

theorem mem_replayed {a : α} {xs ys : List α} : a ∈ xs ++ ys ++ ys ↔ a ∈ xs ++ ys := by
  rw [List.mem_append, List.mem_append, or_assoc, or_self]

theorem lastSet_replayed (xs ys : List (Option α)) :
    lastSet (xs ++ ys ++ ys) = lastSet (xs ++ ys) := by
  simp only [lastSet, List.filterMap_append, getLast?_replayed]

theorem lastFilled_replayed (xs ys : List (List α)) :
    lastFilled (xs ++ ys ++ ys) = lastFilled (xs ++ ys) := by
  simp only [lastFilled, List.filter_append, getLast?_replayed]

end Lists

/-! ## Maps -/

namespace Entries

variable {α : Type}

theorem lookup_of_above {low : String} {es : List (String × α)} (h : Above low es) :
    es.lookup low = none := by
  rw [List.lookup_eq_none_iff]
  intro e he
  simpa using String.ne_of_lt (h e he)

/-- Sorted entries are told by what is found under each key. -/
theorem eq_of_lookup : ∀ {es ds : List (String × α)}, Sorted es → Sorted ds →
    (∀ key, es.lookup key = ds.lookup key) → es = ds
  | [], [], _, _, _ => rfl
  | [], d :: ds, _, _, h => by simpa [lookup_cons_eq_ite] using h d.1
  | e :: es, [], _, _, h => by simpa [lookup_cons_eq_ite] using h e.1
  | e :: es, d :: ds, .cons habove hes, .cons habove' hds, h => by
    -- The smaller one of two different first keys would be found on one side only.
    have hnot : ¬ e.1 < d.1 := by
      intro hlt
      have hnone : Above e.1 (d :: ds) :=
        List.forall_mem_cons.2 ⟨hlt, fun c hc => String.lt_trans hlt (habove' c hc)⟩
      simpa [lookup_of_above hnone, lookup_cons_eq_ite] using h e.1
    have hnot' : ¬ d.1 < e.1 := by
      intro hlt
      have hnone : Above d.1 (e :: es) :=
        List.forall_mem_cons.2 ⟨hlt, fun c hc => String.lt_trans hlt (habove c hc)⟩
      simpa [lookup_of_above hnone, lookup_cons_eq_ite] using h d.1
    have hkey : e.1 = d.1 := String.le_antisymm hnot' hnot
    have hvalue : e.2 = d.2 := by simpa [lookup_cons_eq_ite, hkey] using h e.1
    have htail : ∀ key, es.lookup key = ds.lookup key := by
      intro key
      by_cases hk : key = e.1
      · rw [hk, lookup_of_above habove, hkey, lookup_of_above habove']
      · have hrest := h key
        rwa [lookup_cons_eq_ite, if_neg hk, lookup_cons_eq_ite, if_neg (hkey ▸ hk)] at hrest
    rw [Prod.ext hkey hvalue, eq_of_lookup hes hds htail]

end Entries

theorem SortedMap.eq_of_get? {α : Type} {m n : SortedMap α} (h : ∀ key, m.get? key = n.get? key) :
    m = n :=
  SortedMap.ext (Entries.eq_of_lookup m.sorted n.sorted h)

theorem stacked_eq_ofList (es : List Environment) :
    stacked es = .ofList (es.flatMap (·.entries)) := by
  induction es using List.reverseRecOn with
  | nil => rfl
  | append_singleton es e ih =>
    rw [stacked_concat, ih, List.flatMap_append, OrderedMap.ofList_append]
    simp [OrderedMap.overlay]

theorem stacked_replayed (es ds : List Environment) :
    stacked (es ++ ds ++ ds) = stacked (es ++ ds) := by
  simp only [stacked_eq_ofList, List.flatMap_append, OrderedMap.ofList_replayed]

/-! ## Runners -/

theorem Protocol.eq_of_https_iff {p q : Protocol} (h : p = .https ↔ q = .https) : p = q := by
  cases p <;> cases q <;> simp_all

/-- A list that is put together from one list and twice another, all of it of one kind. -/
theorem exists_map_eq_replayed {α β : Type} {f : α → β} (hf : f.Injective) {xs ys : List β}
    {as : List α} (h : xs ++ ys ++ ys = as.map f) :
    ∃ bs cs, as = bs ++ cs ++ cs ∧ xs ++ ys = (bs ++ cs).map f := by
  obtain ⟨front, cs, rfl, hfront, hcs⟩ := List.map_eq_append_iff.1 h.symm
  obtain ⟨bs, cs', rfl, hbs, hcs'⟩ := List.map_eq_append_iff.1 hfront
  obtain rfl : cs' = cs := hf.list_map (hcs'.trans hcs.symm)
  exact ⟨bs, cs', rfl, hfront.symm⟩

namespace ContainerRunner.Unites

variable {m m' : ContainerRunner} {cs bs : List ContainerRunner}

theorem unique (h : m.Unites cs) (h' : m'.Unites cs) (hi : m.image = m'.image) : m = m' := by
  have hport : m.containerPort = m'.containerPort :=
    Option.some.inj (h.containerPort.symm.trans h'.containerPort)
  have hprotocol := Protocol.eq_of_https_iff (h.protocol.trans h'.protocol.symm)
  have hhost := h.hostPort.trans h'.hostPort.symm
  have henvironment := h.environment.trans h'.environment.symm
  have hvolumes := h.volumes.trans h'.volumes.symm
  have hcommand := h.command.trans h'.command.symm
  cases m
  cases m'
  simp_all

theorem of_replayed (h : m.Unites (bs ++ cs ++ cs)) : m.Unites (bs ++ cs) where
  image c hc := h.image c (List.mem_append_left cs hc)
  containerPort := by simpa only [List.map_append, getLast?_replayed] using h.containerPort
  hostPort := by simpa only [List.map_append, lastSet_replayed] using h.hostPort
  protocol := by simpa only [mem_replayed] using h.protocol
  environment := by simpa only [List.map_append, stacked_replayed] using h.environment
  volumes := by simpa only [List.map_append, lastFilled_replayed] using h.volumes
  command := by simpa only [List.map_append, lastFilled_replayed] using h.command

end ContainerRunner.Unites

namespace ProjectRunner.Unites

variable {m m' : ProjectRunner} {ps qs : List ProjectRunner}

theorem unique (h : m.Unites ps) (h' : m'.Unites ps) (hp : m.project = m'.project) : m = m' := by
  have hport := h.port.trans h'.port.symm
  have hprotocol := Protocol.eq_of_https_iff (h.protocol.trans h'.protocol.symm)
  have hdirectory := h.workingDirectory.trans h'.workingDirectory.symm
  have henvironment := h.environment.trans h'.environment.symm
  cases m
  cases m'
  simp_all

theorem of_replayed (h : m.Unites (ps ++ qs ++ qs)) : m.Unites (ps ++ qs) where
  project p hp := h.project p (List.mem_append_left qs hp)
  port := by simpa only [List.map_append, lastSet_replayed] using h.port
  protocol := by simpa only [mem_replayed] using h.protocol
  workingDirectory := by
    simpa only [List.map_append, lastSet_replayed] using h.workingDirectory
  environment := by simpa only [List.map_append, stacked_replayed] using h.environment

end ProjectRunner.Unites

namespace ExecutableRunner.Unites

variable {m m' : ExecutableRunner} {es ds : List ExecutableRunner}

theorem unique (h : m.Unites es) (h' : m'.Unites es) (hc : m.command = m'.command) : m = m' := by
  have harguments := h.arguments.trans h'.arguments.symm
  have hport := h.port.trans h'.port.symm
  have hprotocol := Protocol.eq_of_https_iff (h.protocol.trans h'.protocol.symm)
  have hdirectory := h.workingDirectory.trans h'.workingDirectory.symm
  have henvironment := h.environment.trans h'.environment.symm
  cases m
  cases m'
  simp_all

theorem of_replayed (h : m.Unites (es ++ ds ++ ds)) : m.Unites (es ++ ds) where
  command e he := h.command e (List.mem_append_left ds he)
  arguments := by simpa only [List.map_append, lastFilled_replayed] using h.arguments
  port := by simpa only [List.map_append, lastSet_replayed] using h.port
  protocol := by simpa only [mem_replayed] using h.protocol
  workingDirectory := by
    simpa only [List.map_append, lastSet_replayed] using h.workingDirectory
  environment := by simpa only [List.map_append, stacked_replayed] using h.environment

end ExecutableRunner.Unites

namespace RemoteRunner.Unites

variable {m m' : RemoteRunner} {os ps : List RemoteRunner}

theorem unique (h : m.Unites os) (h' : m'.Unites os) : m = m' := by
  have henvironments : m.environments = m'.environments :=
    SortedMap.eq_of_get? fun environment => (h environment).trans (h' environment).symm
  cases m
  cases m'
  simp_all

theorem of_replayed (h : m.Unites (os ++ ps ++ ps)) : m.Unites (os ++ ps) := by
  intro environment
  simpa only [List.map_append, lastSet_replayed] using h environment

end RemoteRunner.Unites

namespace MockRunner.Unites

variable {m m' : MockRunner} {ms os : List MockRunner}

theorem unique (h : m.Unites ms) (h' : m'.Unites ms) (hs : m.specification = m'.specification) :
    m = m' := by
  have hport := h.port.trans h'.port.symm
  have henvironment := h.environment.trans h'.environment.symm
  cases m
  cases m'
  simp_all

theorem of_replayed (h : m.Unites (ms ++ os ++ os)) : m.Unites (ms ++ os) where
  specification o ho := h.specification o (List.mem_append_left os ho)
  port := by simpa only [List.map_append, lastSet_replayed] using h.port
  environment := by simpa only [List.map_append, stacked_replayed] using h.environment

end MockRunner.Unites

namespace Runner.Unites

variable {m m' : Runner} {rs ss : List Runner}

/-- The declarations of a target leave no choice. -/
theorem unique (h : m.Unites rs) (h' : m'.Unites rs) (ht : m.target = m'.target) : m = m' := by
  cases m with
  | container m =>
    cases m' with
    | container m' =>
      obtain ⟨cs, rfl, hm⟩ := h
      obtain ⟨cs', hcs, hm'⟩ := h'
      obtain rfl : cs = cs' := Function.Injective.list_map (fun _ _ => container.inj) hcs
      rw [hm.unique hm' (congrArg Prod.snd ht)]
    | _ => simp [target, kind] at ht
  | project m =>
    cases m' with
    | project m' =>
      obtain ⟨ps, rfl, hm⟩ := h
      obtain ⟨ps', hps, hm'⟩ := h'
      obtain rfl : ps = ps' := Function.Injective.list_map (fun _ _ => project.inj) hps
      rw [hm.unique hm' (congrArg Prod.snd ht)]
    | _ => simp [target, kind] at ht
  | executable m =>
    cases m' with
    | executable m' =>
      obtain ⟨es, rfl, hm⟩ := h
      obtain ⟨es', hes, hm'⟩ := h'
      obtain rfl : es = es' := Function.Injective.list_map (fun _ _ => executable.inj) hes
      rw [hm.unique hm' (congrArg Prod.snd ht)]
    | _ => simp [target, kind] at ht
  | remote m =>
    cases m' with
    | remote m' =>
      obtain ⟨os, rfl, hm⟩ := h
      obtain ⟨os', hos, hm'⟩ := h'
      obtain rfl : os = os' := Function.Injective.list_map (fun _ _ => remote.inj) hos
      rw [hm.unique hm']
    | _ => simp [target, kind] at ht
  | mock m =>
    cases m' with
    | mock m' =>
      obtain ⟨ms, rfl, hm⟩ := h
      obtain ⟨ms', hms, hm'⟩ := h'
      obtain rfl : ms = ms' := Function.Injective.list_map (fun _ _ => mock.inj) hms
      rw [hm.unique hm' (congrArg Prod.snd ht)]
    | _ => simp [target, kind] at ht

/-- Declarations that are repeated behind themselves add nothing. -/
theorem of_replayed (h : m.Unites (rs ++ ss ++ ss)) : m.Unites (rs ++ ss) := by
  cases m with
  | container m =>
    obtain ⟨_, hmap, hm⟩ := h
    obtain ⟨bs, cs, rfl, hcs⟩ := exists_map_eq_replayed (fun _ _ => container.inj) hmap
    exact ⟨bs ++ cs, hcs, hm.of_replayed⟩
  | project m =>
    obtain ⟨_, hmap, hm⟩ := h
    obtain ⟨ps, qs, rfl, hps⟩ := exists_map_eq_replayed (fun _ _ => project.inj) hmap
    exact ⟨ps ++ qs, hps, hm.of_replayed⟩
  | executable m =>
    obtain ⟨_, hmap, hm⟩ := h
    obtain ⟨es, ds, rfl, hes⟩ := exists_map_eq_replayed (fun _ _ => executable.inj) hmap
    exact ⟨es ++ ds, hes, hm.of_replayed⟩
  | remote m =>
    obtain ⟨_, hmap, hm⟩ := h
    obtain ⟨os, ps, rfl, hos⟩ := exists_map_eq_replayed (fun _ _ => remote.inj) hmap
    exact ⟨os ++ ps, hos, hm.of_replayed⟩
  | mock m =>
    obtain ⟨_, hmap, hm⟩ := h
    obtain ⟨ms, os, rfl, hms⟩ := exists_map_eq_replayed (fun _ _ => mock.inj) hmap
    exact ⟨ms ++ os, hms, hm.of_replayed⟩

end Runner.Unites

theorem eq_of_map_eq {α β : Type} {f : α → β} : ∀ {as bs : List α}, as.map f = bs.map f →
    (∀ a ∈ as, ∀ b ∈ bs, f a = f b → a = b) → as = bs
  | [], [], _, _ => rfl
  | [], _ :: _, h, _ => by cases h
  | _ :: _, [], h, _ => by cases h
  | a :: as, b :: bs, h, hinj => by
    obtain ⟨hhead, htail⟩ := List.cons.inj h
    rw [hinj a List.mem_cons_self b List.mem_cons_self hhead, eq_of_map_eq htail fun c hc d hd =>
      hinj c (List.mem_cons_of_mem _ hc) d (List.mem_cons_of_mem _ hd)]

theorem addRunners_replayed (rs ss : List Runner) :
    addRunners [] (rs ++ ss ++ ss) = addRunners [] (rs ++ ss) := by
  -- The targets are the same in the same order, and each runner unites the declarations of its own.
  refine eq_of_map_eq (f := Runner.target) ?_ fun m hm m' hm' ht => ?_
  · simp only [map_target_addRunners, List.map_append, eraseDups_replayed]
  · have hunites := unites_of_mem_addRunners _ m hm
    have hunites' := unites_of_mem_addRunners _ m' hm'
    simp only [List.filter_append, Runner.sameTarget_congr ht] at hunites hunites'
    exact hunites.of_replayed.unique hunites' ht

/-! ## Services and fragments -/

theorem ServiceFragment.mergeAll_replayed (ds es : List ServiceFragment) :
    mergeAll (ds ++ es ++ es) = mergeAll (ds ++ es) := by
  have hrunners : (mergeAll (ds ++ es ++ es)).runners = (mergeAll (ds ++ es)).runners := by
    simp only [runners_mergeAll, List.flatMap_append, addRunners_replayed]
  have hhealthcheck : (mergeAll (ds ++ es ++ es)).healthcheck =
      (mergeAll (ds ++ es)).healthcheck := by
    simp only [healthcheck_mergeAll, List.map_append, lastSet_replayed]
  have hnone :
      (mergeAll (ds ++ es ++ es)).ingress = none ↔ (mergeAll (ds ++ es)).ingress = none := by
    simp only [ingress_mergeAll_eq_none_iff, List.filterMap_append, List.append_eq_nil_iff,
      and_assoc, and_self]
  have hsome : (mergeAll (ds ++ es ++ es)).ingress.getD {} =
      (mergeAll (ds ++ es)).ingress.getD {} := by
    simp only [ingress_mergeAll, List.filterMap_append, List.map_append, lastSet_replayed]
  -- An ingress is declared on both sides or on neither, and then it has the same fields.
  have hingress : (mergeAll (ds ++ es ++ es)).ingress = (mergeAll (ds ++ es)).ingress := by
    rcases hi : (mergeAll (ds ++ es)).ingress with _ | i
    · exact hnone.2 hi
    · rcases hj : (mergeAll (ds ++ es ++ es)).ingress with _ | j
      · cases hi.symm.trans (hnone.1 hj)
      · rw [hi, hj] at hsome
        exact congrArg some hsome
  cases hx : mergeAll (ds ++ es ++ es)
  cases hy : mergeAll (ds ++ es)
  simp_all

theorem declaredNames_replayed (fs gs : List Fragment) :
    declaredNames (fs ++ gs ++ gs) = declaredNames (fs ++ gs) := by
  simp only [declaredNames, List.flatMap_append, eraseDups_replayed]

theorem Fragment.mergeAll_replayed (fs gs : List Fragment) :
    mergeAll (fs ++ gs ++ gs) = mergeAll (fs ++ gs) := by
  have hname : (mergeAll (fs ++ gs ++ gs)).name = (mergeAll (fs ++ gs)).name := by
    simp only [name_mergeAll, List.map_append, lastSet_replayed]
  have hservices : (mergeAll (fs ++ gs ++ gs)).services = (mergeAll (fs ++ gs)).services := by
    refine OrderedMap.ext ?_
    simp only [entries_mergeAll, declaredNames_replayed, declarations, List.filterMap_append,
      ServiceFragment.mergeAll_replayed]
  have hdependencies : (mergeAll (fs ++ gs ++ gs)).dependencies =
      (mergeAll (fs ++ gs)).dependencies := by
    simp only [dependencies_mergeAll, List.flatMap_append, eraseDups_replayed]
  cases hx : mergeAll (fs ++ gs ++ gs)
  cases hy : mergeAll (fs ++ gs)
  simp_all

/-- Fragments that are merged once more behind themselves make the same graph, or have the same
fault. -/
theorem ofFragments_replayed (fs gs : List Fragment) :
    Graph.ofFragments (fs ++ gs ++ gs) = Graph.ofFragments (fs ++ gs) := by
  rw [Graph.ofFragments, Graph.ofFragments, Fragment.mergeAll_replayed]

end LocalTopology
