import LocalTopology.Merge
import LocalTopology.Proofs.Absorbing

/-!
# What a graph holds of its fragments

A merged service unites its declarations: each of its fields is set by the last declaration that
sets it, and its runners are one for each target, in the order of the targets' first declarations,
that unites the declarations of that target (`unites_of_mem_addRunners`). A graph holds, under every
name that is declared, a service that unites the declarations of the name, in the order of the
names' first declarations (`ofFragments_unites`).
-/

namespace LocalTopology

/-! ## Runners -/

theorem map_target_addRunner (r : Runner) : ∀ rs : List Runner,
    (addRunner r rs).map Runner.target =
      if r.target ∈ rs.map Runner.target then rs.map Runner.target
      else rs.map Runner.target ++ [r.target]
  | [] => by simp [addRunner]
  | x :: xs => by
    have ih := map_target_addRunner r xs
    unfold addRunner
    by_cases h : x.sameTarget r = true
    · have ht := Runner.sameTarget_iff.1 h
      simp [h, ht]
    · have ht : ¬ r.target = x.target := fun e => h (Runner.sameTarget_iff.2 e.symm)
      rw [if_neg h, List.map_cons, ih]
      by_cases hm : r.target ∈ xs.map Runner.target
      · rw [if_pos hm, List.map_cons, if_pos (List.mem_cons_of_mem _ hm)]
      · rw [if_neg hm, List.map_cons, if_neg (by simp only [List.mem_cons, not_or]; exact ⟨ht, hm⟩)]
        rfl

theorem mem_addRunner {m r : Runner} : ∀ {rs : List Runner}, (rs.map Runner.target).Nodup →
    m ∈ addRunner r rs →
      (m ∈ rs ∧ m.target ≠ r.target) ∨ (∃ x ∈ rs, x.sameTarget r = true ∧ m = x.absorb r) ∨
        (m = r ∧ r.target ∉ rs.map Runner.target)
  | [], _, h => by
    simp only [addRunner, List.mem_singleton] at h
    simp [h]
  | x :: xs, hn, h => by
    rw [List.map_cons, List.nodup_cons] at hn
    unfold addRunner at h
    split_ifs at h with hx
    · have ht := Runner.sameTarget_iff.1 hx
      rcases List.mem_cons.1 h with rfl | h
      · exact Or.inr (Or.inl ⟨x, by simp, hx, rfl⟩)
      · refine Or.inl ⟨by simp [h], fun e => hn.1 ?_⟩
        rw [ht, ← e]
        exact List.mem_map_of_mem h
    · have ht : x.target ≠ r.target := fun e => hx (Runner.sameTarget_iff.2 e)
      rcases List.mem_cons.1 h with rfl | h
      · exact Or.inl ⟨by simp, ht⟩
      · rcases mem_addRunner hn.2 h with ⟨hm, hmt⟩ | ⟨y, hy, hyr, rfl⟩ | ⟨rfl, hnot⟩
        · exact Or.inl ⟨by simp [hm], hmt⟩
        · exact Or.inr (Or.inl ⟨y, by simp [hy], hyr, rfl⟩)
        · refine Or.inr (Or.inr ⟨rfl, ?_⟩)
          rw [List.map_cons, List.mem_cons, not_or]
          exact ⟨ht.symm, hnot⟩

theorem addRunners_concat (rs all : List Runner) (r : Runner) :
    addRunners rs (all ++ [r]) = addRunner r (addRunners rs all) := by
  simp [addRunners, List.foldl_append]

/-- The runners of a service are one for each target, in the order of first declarations. -/
theorem map_target_addRunners (all : List Runner) :
    (addRunners [] all).map Runner.target = (all.map Runner.target).eraseDups := by
  induction all using List.reverseRecOn with
  | nil => rfl
  | append_singleton all r ih =>
    rw [addRunners_concat, map_target_addRunner, ih, List.map_append, List.map_singleton,
      eraseDups_concat]
    simp only [List.mem_eraseDups]

theorem nodup_target_addRunners (all : List Runner) :
    ((addRunners [] all).map Runner.target).Nodup := by
  rw [map_target_addRunners]
  exact nodup_eraseDups _

/-- Each of the runners of a service unites the declarations of its target. -/
theorem unites_of_mem_addRunners (all : List Runner) :
    ∀ m ∈ addRunners [] all, m.Unites (all.filter (m.sameTarget ·)) := by
  induction all using List.reverseRecOn with
  | nil => simp [addRunners]
  | append_singleton all r ih =>
    intro m hm
    rw [addRunners_concat] at hm
    rw [List.filter_append]
    rcases mem_addRunner (nodup_target_addRunners all) hm with
      ⟨hm, hmt⟩ | ⟨x, hx, hxr, rfl⟩ | ⟨rfl, hnot⟩
    · have hf : m.sameTarget r = false := by
        rw [← Bool.not_eq_true, Runner.sameTarget_iff]
        exact hmt
      simpa [hf] using ih m hm
    · have hsame := Runner.sameTarget_congr (Runner.target_absorb x r)
      simp only [hsame, List.filter_singleton, hxr]
      exact (ih x hx).absorb r.unites_singleton hxr
    · have hself : m.sameTarget m = true := Runner.sameTarget_iff.2 rfl
      have hnone : all.filter (m.sameTarget ·) = [] := by
        rw [List.filter_eq_nil_iff]
        intro y hy hmy
        rw [map_target_addRunners, List.mem_eraseDups] at hnot
        exact hnot (Runner.sameTarget_iff.1 hmy ▸ List.mem_map_of_mem hy)
      simpa [hnone, hself] using Runner.unites_singleton m

/-! ## Services -/

/-- Declarations of a service, merged one on top of the other. -/
def ServiceFragment.mergeAll (ds : List ServiceFragment) : ServiceFragment := ds.foldl merge {}

namespace ServiceFragment

theorem mergeAll_concat (ds : List ServiceFragment) (d : ServiceFragment) :
    mergeAll (ds ++ [d]) = (mergeAll ds).merge d := by
  simp [mergeAll, List.foldl_append]

theorem healthcheck_mergeAll (ds : List ServiceFragment) :
    (mergeAll ds).healthcheck = lastSet (ds.map (·.healthcheck)) := by
  induction ds using List.reverseRecOn with
  | nil => rfl
  | append_singleton ds d ih => simp [mergeAll_concat, merge, ih]

theorem runners_mergeAll (ds : List ServiceFragment) :
    (mergeAll ds).runners = addRunners [] (ds.flatMap (·.runners)) := by
  induction ds using List.reverseRecOn with
  | nil => rfl
  | append_singleton ds d ih => simp [mergeAll_concat, merge, ih, addRunners, List.foldl_append]

theorem ingress_mergeAll_eq_none_iff (ds : List ServiceFragment) :
    (mergeAll ds).ingress = none ↔ ds.filterMap (·.ingress) = [] := by
  induction ds using List.reverseRecOn with
  | nil => simp [mergeAll]
  | append_singleton ds d ih =>
    rcases hd : d.ingress with _ | i
    · simp [mergeAll_concat, merge, hd, ih, List.filterMap_append]
    · simp [mergeAll_concat, merge, hd, List.filterMap_append]

theorem ingress_mergeAll (ds : List ServiceFragment) :
    (mergeAll ds).ingress.getD {} =
      ⟨lastSet ((ds.filterMap (·.ingress)).map (·.host)),
        lastSet ((ds.filterMap (·.ingress)).map (·.path))⟩ := by
  induction ds using List.reverseRecOn with
  | nil => rfl
  | append_singleton ds d ih =>
    rcases hd : d.ingress with _ | i
    · simp [mergeAll_concat, merge, hd, ih, List.filterMap_append]
    · simp [mergeAll_concat, merge, hd, ih, List.filterMap_append, IngressFragment.merge]

end ServiceFragment

/-- A service that unites its declarations. -/
structure Service.Unites (s : Service) (ds : List ServiceFragment) : Prop where
  ingress : s.ingress = none ↔ ds.filterMap (·.ingress) = []
  host : ∀ i, s.ingress = some i →
    lastSet ((ds.filterMap (·.ingress)).map (·.host)) = some i.host
  path : ∀ i, s.ingress = some i →
    i.path = (lastSet ((ds.filterMap (·.ingress)).map (·.path))).getD "/"
  healthcheck : s.healthcheck = lastSet (ds.map (·.healthcheck))
  targets : s.runners.map Runner.target = ((ds.flatMap (·.runners)).map Runner.target).eraseDups
  runners : ∀ r ∈ s.runners, r.Unites ((ds.flatMap (·.runners)).filter (r.sameTarget ·))
  origin : s.origin = .declared

theorem IngressFragment.complete_eq_ok_iff {service : String} {i : IngressFragment} {g : Ingress} :
    i.complete service = .ok g ↔ i.host = some g.host ∧ Hostname.isAccepted g.host = true ∧
      g.path = i.path.getD Ingress.defaultPath ∧ Text.startsWith "/" g.path = true := by
  obtain ⟨host, path⟩ := g
  unfold IngressFragment.complete checkHost
  rcases i.host with _ | h
  · simp
  · by_cases ha : Hostname.isAccepted h = true
    · by_cases hs : Text.startsWith "/" (i.path.getD Ingress.defaultPath) = true
      · simp only [ha, hs, if_true, bind, Except.bind, Except.ok.injEq, Ingress.mk.injEq,
          Option.some.injEq]
        constructor
        · rintro ⟨rfl, rfl⟩
          exact ⟨rfl, ha, rfl, hs⟩
        · rintro ⟨rfl, -, rfl, -⟩
          exact ⟨rfl, rfl⟩
      · simp only [ha, if_true, bind, Except.bind, hs, Option.some.injEq]
        refine iff_of_false (by simp) ?_
        rintro ⟨rfl, -, rfl, hp⟩
        exact hs hp
    · simp only [ha, bind, Except.bind, Option.some.injEq]
      refine iff_of_false (by simp) ?_
      rintro ⟨rfl, hp, -⟩
      exact ha hp

/-- What comes after the ingress of a service is the same whether or not there is one. -/
theorem ServiceFragment.polled_eq_ok_iff {name : String} {f : ServiceFragment} {s : Service}
    (ingress : Option Ingress) :
    (match f.healthcheck with
      | some path =>
        if Text.startsWith "/" path = true then
          .ok { ingress, runners := f.runners, healthcheck := f.healthcheck }
        else .error (ConfigFault.healthcheckPath name path)
      | none => .ok { ingress, runners := f.runners, healthcheck := f.healthcheck }) =
        (Except.ok s : Except ConfigFault Service) ↔
      s.ingress = ingress ∧
        (∀ path, f.healthcheck = some path → Text.startsWith "/" path = true) ∧
          s.runners = f.runners ∧ s.healthcheck = f.healthcheck ∧ s.origin = .declared := by
  obtain ⟨si, sr, sh, so⟩ := s
  rcases f.healthcheck with _ | path
  · simp only [Except.ok.injEq, Service.mk.injEq]
    constructor
    · rintro ⟨rfl, rfl, rfl, rfl⟩
      exact ⟨rfl, by simp, rfl, rfl, rfl⟩
    · rintro ⟨rfl, -, rfl, rfl, rfl⟩
      exact ⟨rfl, rfl, rfl, rfl⟩
  · by_cases hp : Text.startsWith "/" path = true
    · simp only [hp, if_true, Except.ok.injEq, Service.mk.injEq]
      constructor
      · rintro ⟨rfl, rfl, rfl, rfl⟩
        refine ⟨rfl, ?_, rfl, rfl, rfl⟩
        rintro q ⟨⟩
        exact hp
      · rintro ⟨rfl, -, rfl, rfl, rfl⟩
        exact ⟨rfl, rfl, rfl, rfl⟩
    · simp only [hp]
      refine iff_of_false (by simp) ?_
      rintro ⟨-, h, -⟩
      exact hp (h path rfl)

/-- A service is complete with a runner, a complete ingress or none, and a path to poll or none. -/
theorem ServiceFragment.complete_eq_ok_iff {name : String} {f : ServiceFragment} {s : Service} :
    f.complete name = .ok s ↔ f.runners ≠ [] ∧
      Option.Rel (fun i g => i.complete name = .ok g) f.ingress s.ingress ∧
        (∀ path, f.healthcheck = some path → Text.startsWith "/" path = true) ∧
          s.runners = f.runners ∧ s.healthcheck = f.healthcheck ∧ s.origin = .declared := by
  unfold ServiceFragment.complete
  by_cases hr : f.runners = []
  · simp [hr, bind, Except.bind]
  have hr' : f.runners.isEmpty = false := by simpa using hr
  rcases hi : f.ingress with _ | i
  · simp only [hr', bind, Except.bind, pure, Except.pure]
    rw [if_neg (by simp)]
    refine (polled_eq_ok_iff none).trans ⟨fun ⟨h, hs⟩ => ⟨hr, ?_, hs⟩, fun ⟨_, h, hs⟩ => ⟨?_, hs⟩⟩
    · rw [h]
      exact .none
    · cases hsi : s.ingress
      · rfl
      · rw [hsi] at h
        cases h
  · rcases hc : i.complete name with e | g
    · simp only [hr', hc, bind, Except.bind, Functor.map, Except.map]
      refine iff_of_false (by simp) ?_
      rintro ⟨-, h, -⟩
      cases hsi : s.ingress <;> rw [hsi] at h <;> cases h
      next h =>
        rw [hc] at h
        cases h
    · simp only [hr', hc, bind, Except.bind, pure, Except.pure, Functor.map, Except.map]
      rw [if_neg (by simp)]
      refine (polled_eq_ok_iff (some g)).trans
        ⟨fun ⟨h, hs⟩ => ⟨hr, ?_, hs⟩, fun ⟨_, h, hs⟩ => ⟨?_, hs⟩⟩
      · rw [h]
        exact .some hc
      · cases hsi : s.ingress <;> rw [hsi] at h <;> cases h
        next h =>
          rw [hc] at h
          cases h
          rfl

theorem Service.unites_of_complete {name : String} {ds : List ServiceFragment} {s : Service}
    (h : (ServiceFragment.mergeAll ds).complete name = .ok s) : s.Unites ds := by
  obtain ⟨-, hrel, -, hr, hh, ho⟩ := ServiceFragment.complete_eq_ok_iff.1 h
  have hhealth := hh.trans (ServiceFragment.healthcheck_mergeAll ds)
  rw [ServiceFragment.runners_mergeAll] at hr
  have htargets := map_target_addRunners (ds.flatMap fun d => d.runners)
  have hunites := unites_of_mem_addRunners (ds.flatMap fun d => d.runners)
  rw [← hr] at htargets hunites
  have hnone := ServiceFragment.ingress_mergeAll_eq_none_iff ds
  have hfields := ServiceFragment.ingress_mergeAll ds
  rcases hf : (ServiceFragment.mergeAll ds).ingress with _ | i <;>
    rcases hs : s.ingress with _ | g <;> rw [hf, hs] at hrel
  · rw [hf] at hnone
    exact ⟨by simp [hs, ← hnone], by simp [hs], by simp [hs], hhealth, htargets, hunites, ho⟩
  · cases hrel
  · cases hrel
  · obtain hc : i.complete name = .ok g := by
      cases hrel
      assumption
    obtain ⟨hhost, -, hpath, -⟩ := IngressFragment.complete_eq_ok_iff.1 hc
    rw [hf] at hnone hfields
    obtain rfl : i = _ := hfields
    refine ⟨by simp [hs, ← hnone], ?_, ?_, hhealth, htargets, hunites, ho⟩
    · intro j hj
      rw [hs, Option.some.injEq] at hj
      rw [← hj, ← hhost]
    · intro j hj
      rw [hs, Option.some.injEq] at hj
      rw [← hj, hpath]
      rfl

/-! ## Fragments -/

theorem foldl_addDependency (ds : List Dependency) : ds.foldl addDependency [] = ds.eraseDups := by
  induction ds using List.reverseRecOn with
  | nil => rfl
  | append_singleton ds d ih =>
    rw [List.foldl_append, ih, eraseDups_concat]
    simp [addDependency]

namespace Fragment

theorem keys_addServices (ps : List (String × ServiceFragment)) :
    (ps.foldl (fun m e => addService m e.1 e.2) ∅).keys = (ps.map (·.1)).eraseDups := by
  induction ps using List.reverseRecOn with
  | nil => rfl
  | append_singleton ps p ih =>
    rw [List.foldl_append, List.foldl_cons, List.foldl_nil, addService, Registry.keys_put, ih,
      List.map_append, List.map_singleton, eraseDups_concat]
    simp only [List.mem_eraseDups]

theorem get?_addServices (ps : List (String × ServiceFragment)) (name : String) :
    ((ps.foldl (fun m e => addService m e.1 e.2) ∅).get? name).getD {} =
      ServiceFragment.mergeAll ((ps.filter (·.1 == name)).map (·.2)) := by
  induction ps using List.reverseRecOn with
  | nil => rfl
  | append_singleton ps p ih =>
    rw [List.foldl_append, List.foldl_cons, List.foldl_nil, addService, Registry.get?_put,
      List.filter_append, List.map_append]
    by_cases hp : p.1 = name
    · subst hp
      simp [ih, ServiceFragment.mergeAll_concat]
    · simp [hp, ih]

theorem mergeAll_concat (fs : List Fragment) (f : Fragment) :
    mergeAll (fs ++ [f]) = (mergeAll fs).merge f := by
  simp [mergeAll, List.foldl_append]

theorem name_mergeAll (fs : List Fragment) :
    (mergeAll fs).name = lastSet (fs.map fun f => f.name.filter fun n => !Text.isAllBlank n) := by
  induction fs using List.reverseRecOn with
  | nil => rfl
  | append_singleton fs f ih => simp [mergeAll_concat, merge, ih]

theorem dependencies_mergeAll (fs : List Fragment) :
    (mergeAll fs).dependencies = (fs.flatMap (·.dependencies)).eraseDups := by
  rw [← foldl_addDependency]
  induction fs using List.reverseRecOn with
  | nil => rfl
  | append_singleton fs f ih => simp [mergeAll_concat, merge, ih, List.foldl_append]

theorem services_mergeAll (fs : List Fragment) :
    (mergeAll fs).services =
      (fs.flatMap (·.services.entries)).foldl (fun m e => addService m e.1 e.2) ∅ := by
  induction fs using List.reverseRecOn with
  | nil => rfl
  | append_singleton fs f ih => simp [mergeAll_concat, merge, ih, List.foldl_append]

theorem keys_mergeAll (fs : List Fragment) :
    (mergeAll fs).services.keys = (fs.flatMap (·.services.keys)).eraseDups := by
  rw [services_mergeAll, keys_addServices, List.map_flatMap]
  rfl

/-- The declarations of a name, merged in order. -/
theorem get?_mergeAll {fs : List Fragment} {name : String} {s : ServiceFragment}
    (h : (mergeAll fs).services.get? name = some s) :
    s = ServiceFragment.mergeAll (fs.filterMap (·.services.get? name)) := by
  have hget := get?_addServices (fs.flatMap (·.services.entries)) name
  rw [← services_mergeAll, h, Option.getD_some] at hget
  rw [hget, List.filter_flatMap, List.map_flatMap, List.filterMap_eq_flatMap_toList]
  simp only [Registry.filter_entries]
  congr 2
  funext f
  cases f.services.get? name <;> rfl

theorem complete_eq_ok_iff {f : Fragment} {g : Graph} :
    f.complete = .ok g ↔ f.name = some g.name ∧
      f.services.traverse (fun name s => s.complete name) = .ok g.services ∧
        g.dependencies = f.dependencies := by
  obtain ⟨gname, gservices, gdeps⟩ := g
  unfold complete
  rcases f.name with _ | name
  · simp
  · simp only [bind, Except.bind, pure, Except.pure, Option.some.injEq]
    generalize f.services.traverse (fun name s => s.complete name) = completed
    rcases completed with e | services
    · simp
    · simp only [Except.ok.injEq, Graph.mk.injEq]
      exact and_congr Iff.rfl (and_congr Iff.rfl eq_comm)

end Fragment

theorem Service.unites_of_ofFragments {fs : List Fragment} {g : Graph}
    (h : Graph.ofFragments fs = .ok g) {name : String} {s : Service}
    (hs : g.services.get? name = some s) : s.Unites (fs.filterMap (·.services.get? name)) := by
  obtain ⟨-, hservices, -⟩ := Fragment.complete_eq_ok_iff.1 h
  obtain ⟨d, hd, hc⟩ := Registry.get?_traverse hservices hs
  exact Service.unites_of_complete (Fragment.get?_mergeAll hd ▸ hc)

/-- A service that unites its declarations has no two runners of one target. -/
theorem Service.Unites.nodup_target {s : Service} {ds : List ServiceFragment} (h : s.Unites ds) :
    (s.runners.map Runner.target).Nodup := by
  rw [h.targets]
  exact nodup_eraseDups _

/-- A graph holds the last name that is not blank, under each declared name the service that unites
the declarations of that name, and the dependencies, all in the order of first declarations. -/
theorem ofFragments_unites {fs : List Fragment} {g : Graph} (h : Graph.ofFragments fs = .ok g) :
    lastSet (fs.map fun f => f.name.filter fun n => !Text.isAllBlank n) = some g.name ∧
      g.services.keys = (fs.flatMap (·.services.keys)).eraseDups ∧
        g.dependencies = (fs.flatMap (·.dependencies)).eraseDups ∧
          ∀ name s, g.services.get? name = some s →
            s.Unites (fs.filterMap (·.services.get? name)) := by
  obtain ⟨hname, hservices, hdeps⟩ := Fragment.complete_eq_ok_iff.1 h
  refine ⟨?_, ?_, ?_, fun _ _ => Service.unites_of_ofFragments h⟩
  · rw [← Fragment.name_mergeAll, hname]
  · rw [Registry.keys_traverse hservices, Fragment.keys_mergeAll]
  · rw [hdeps, Fragment.dependencies_mergeAll]

/-- A service whose host, path, ports and protocol come from two fragments, the later one with a
blank name. -/
theorem ofFragments_unites_two :
    let fs : List Fragment :=
      [{ name := some "shop",
         dependencies := [.redis],
         services := .ofList [("api",
           { ingress := some { host := some "api.workleap.localhost" },
             runners :=
               [.container { image := "api", containerPort := 80, hostPort := some 8080 }] })] },
        { name := some " ",
          dependencies := [.redis, .mongo],
          services := .ofList [("api",
            { ingress := some { path := some "/v1" },
              runners :=
                [.container { image := "api", containerPort := 81, protocol := .https }] })] }]
    ∃ g, Graph.ofFragments fs = .ok g ∧ g.name = "shop" ∧ g.dependencies = [.redis, .mongo] ∧
      ∀ name s, g.services.get? name = some s →
        s.Unites (fs.filterMap (·.services.get? name)) :=
  ⟨_, rfl, rfl, by decide, (ofFragments_unites rfl).2.2.2⟩

end LocalTopology
