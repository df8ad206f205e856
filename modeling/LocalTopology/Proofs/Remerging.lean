import LocalTopology.Proofs.Documents
import LocalTopology.Proofs.Merging

/-!
# Merging what was merged

Nothing in a settled fragment absorbs another part of it, so it stays as it is when it is merged on
top of nothing (`Fragment.Settled.empty_merge`). The fragment that declares what a merged graph
holds is settled and complete. A merged graph that is written, read and merged again is therefore
the same graph (`ofFragments_of_readFragment_graphNode`).
-/

namespace LocalTopology

/-! ## Settled fragments -/

theorem addRunner_of_not_mem {r : Runner} : ∀ {rs : List Runner}, r.target ∉ rs.map Runner.target →
    addRunner r rs = rs ++ [r]
  | [], _ => rfl
  | x :: rs, h => by
    rw [List.map_cons, List.mem_cons, not_or] at h
    have hx : ¬ x.sameTarget r = true := fun hs => h.1 (Runner.sameTarget_iff.1 hs).symm
    rw [addRunner, if_neg hx, addRunner_of_not_mem h.2, List.cons_append]

theorem addRunners_of_nodup {rs : List Runner} (h : (rs.map Runner.target).Nodup) :
    addRunners [] rs = rs := by
  induction rs using List.reverseRecOn with
  | nil => rfl
  | append_singleton rs r ih =>
    rw [List.map_append, List.map_singleton, List.nodup_append] at h
    obtain ⟨hrs, -, hnew⟩ := h
    rw [addRunners_concat, ih hrs, addRunner_of_not_mem]
    exact fun hm => hnew _ hm _ (List.mem_singleton_self _) rfl

theorem IngressFragment.empty_merge (i : IngressFragment) : ({} : IngressFragment).merge i = i := by
  rcases i with ⟨_ | host, _ | path⟩ <;> rfl

theorem ServiceFragment.empty_merge {s : ServiceFragment}
    (h : (s.runners.map Runner.target).Nodup) : ({} : ServiceFragment).merge s = s := by
  obtain ⟨_ | ingress, runners, _ | healthcheck⟩ := s <;>
    simp [merge, addRunners_of_nodup h, IngressFragment.empty_merge]

namespace Fragment

/-- Nothing in the fragment absorbs another part of it or is passed over. -/
structure Settled (f : Fragment) : Prop where
  name : ∀ n, f.name = some n → Text.isAllBlank n = false
  targets : ∀ e ∈ f.services.entries, (e.2.runners.map Runner.target).Nodup
  dependencies : f.dependencies.Nodup

theorem addServices_of_new : ∀ {es : List (String × ServiceFragment)}
    {m : Registry ServiceFragment}, (Entries.forms id es).Nodup → (∀ e ∈ es, e.1 ∉ m.keys) →
    (∀ e ∈ es, ({} : ServiceFragment).merge e.2 = e.2) →
      es.foldl (fun m e => addService m e.1 e.2) m = m.putAll es
  | [], _, _, _, _ => rfl
  | e :: es, m, hnodup, hnew, hmerge => by
    rw [Entries.forms, List.map_cons, List.nodup_cons] at hnodup
    have hnone : m.get? e.1 = none := OrderedMap.get?_eq_none_iff.2 (hnew e List.mem_cons_self)
    have hadd : addService m e.1 e.2 = m.put e.1 e.2 := by
      rw [addService, hnone, Option.getD_none, hmerge e List.mem_cons_self]
    rw [List.foldl_cons, hadd]
    refine addServices_of_new hnodup.2 (fun d hd hm => ?_)
      fun d hd => hmerge d (List.mem_cons_of_mem _ hd)
    rcases Registry.mem_keys_put.1 hm with hm | hm
    · exact hnew d (List.mem_cons_of_mem _ hd) hm
    · exact hnodup.1 (List.mem_map.2 ⟨d, hd, hm⟩)

theorem Settled.empty_merge {f : Fragment} (h : f.Settled) : ({} : Fragment).merge f = f := by
  have hname : ((f.name.filter fun n => !Text.isAllBlank n) <|> none) = f.name := by
    rcases hn : f.name with _ | n
    · rfl
    · simp [h.name n hn]
  have hservices : f.services.entries.foldl (fun m e => addService m e.1 e.2) ∅ = f.services := by
    rw [addServices_of_new f.services.nodup (fun _ _ => List.not_mem_nil)
      fun e he => ServiceFragment.empty_merge (h.targets e he)]
    exact OrderedMap.empty_overlay f.services
  have hdependencies : f.dependencies.foldl addDependency [] = f.dependencies := by
    rw [foldl_addDependency, eraseDups_of_nodup h.dependencies]
  simp only [merge, hname, hservices, hdependencies]

end Fragment

/-! ## Graphs -/

theorem ServiceFragment.complete_ofService {name : String} {d : ServiceFragment} {s : Service}
    (h : d.complete name = .ok s) : (ofService s).complete name = .ok s := by
  obtain ⟨hne, hrel, hpath, hr, hh, ho⟩ := complete_eq_ok_iff.1 h
  refine complete_eq_ok_iff.2 ⟨by rwa [← hr] at hne, ?_, by rwa [← hh] at hpath, rfl, rfl, ho⟩
  show Option.Rel _ (s.ingress.map _) s.ingress
  rcases hs : s.ingress with _ | i
  · exact .none
  · rcases hd : d.ingress with _ | j <;> rw [hd, hs] at hrel <;> cases hrel
    next hc =>
    obtain ⟨-, haccepted, -, hslash⟩ := IngressFragment.complete_eq_ok_iff.1 hc
    exact .some (IngressFragment.complete_eq_ok_iff.2 ⟨rfl, haccepted, rfl, hslash⟩)

namespace Fragment

variable {fs : List Fragment} {g : Graph}

/-- Merging leaves no two runners of one target, no dependency twice and no blank name. -/
theorem settled_ofGraph (h : Graph.ofFragments fs = .ok g) : (ofGraph g).Settled where
  name n hn := by
    cases hn
    obtain ⟨f, -, hf⟩ := List.mem_map.1 (mem_of_lastSet (ofFragments_unites h).1)
    simpa using (Option.filter_eq_some_iff.1 hf).2
  targets e he := by
    obtain ⟨⟨name, s⟩, hs, rfl⟩ := List.mem_map.1 he
    exact (Service.unites_of_ofFragments h (Registry.get?_eq_some_iff.2 hs)).nodup_target
  dependencies := by
    show g.dependencies.Nodup
    rw [(ofFragments_unites h).2.2.1]
    exact nodup_eraseDups _

/-- What a merged graph holds is complete. -/
theorem complete_ofGraph (h : Graph.ofFragments fs = .ok g) : (ofGraph g).complete = .ok g := by
  obtain ⟨-, hservices, -⟩ := complete_eq_ok_iff.1 h
  refine complete_eq_ok_iff.2 ⟨rfl, OrderedMap.traverse_eq_ok_iff.2 ?_, rfl⟩
  refine List.forall₂_map_left_iff.2 (List.forall₂_same.2 fun e he => ⟨rfl, ?_⟩)
  obtain ⟨d, -, hd⟩ := Registry.get?_traverse hservices (Registry.get?_eq_some_iff.2 he)
  exact ServiceFragment.complete_ofService hd

end Fragment

/-- A merged graph that is written reads as a fragment that merges into the same graph. -/
theorem ofFragments_of_readFragment_graphNode {fs : List Fragment} {g : Graph}
    (h : Graph.ofFragments fs = .ok g) :
    ∃ f, Document.readFragment .root (Document.graphNode g) = .ok f ∧
      Graph.ofFragments [f] = .ok g := by
  refine ⟨_, Document.readFragment_graphNode g, ?_⟩
  rw [Graph.ofFragments, Fragment.mergeAll, List.foldl_cons, List.foldl_nil,
    (Fragment.settled_ofGraph h).empty_merge, Fragment.complete_ofGraph h]

/-- Two fragments with runners of all kinds, one of them declared twice with a variable that is
spelled differently. -/
theorem ofFragments_of_readFragment_graphNode_kinds :
    let fs : List Fragment :=
      [{ name := some "shop",
         dependencies := [.redis],
         services := .ofList [("api",
           { ingress := some { host := some "api.workleap.localhost" },
             runners :=
               [.container
                 { image := "api", containerPort := 80, volumes := ["data:/data"],
                   environment := .ofList [("Mode", "dev"), ("Retries", "3")] },
                .remote { environments := .ofList [("prod", "https://api/"), ("dev", "null")] }],
             healthcheck := some "/health" })] },
       { services := .ofList
          [("web", { runners := [.project { project := "web", workingDirectory := some "~" },
                                 .executable { command := "npm", arguments := ["start"] }] }),
           ("api",
            { runners :=
                [.container { image := "api", containerPort := 8080, protocol := .https,
                              environment := .ofList [("MODE", "true")] },
                 .mock { specification := "api.yml", port := some 5001 }] })] }]
    ∃ g, Graph.ofFragments fs = .ok g ∧ g.services.keys = ["api", "web"] ∧
      ∃ f, Document.readFragment .root (Document.graphNode g) = .ok f ∧
        Graph.ofFragments [f] = .ok g := by
  intro fs
  obtain ⟨g, hg, hkeys⟩ : ∃ g, Graph.ofFragments fs = .ok g ∧ g.services.keys = ["api", "web"] :=
    ⟨_, rfl, by decide⟩
  exact ⟨g, hg, hkeys, ofFragments_of_readFragment_graphNode hg⟩

end LocalTopology
