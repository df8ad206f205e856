import LocalTopology.Map.Ordered
import LocalTopology.Map.Sorted
import Mathlib.Data.List.Forall2
import Mathlib.Data.List.Nodup

/-!
# Maps, by what stands under a key

A registry holds an entry exactly where it answers with its value (`Registry.get?_eq_some_iff`), and
writing adds its key at the end unless it is there (`Registry.keys_put`). Writing all entries of one
sorted map over another answers with the upper one wherever it can (`SortedMap.get?_putAll`).
-/

namespace LocalTopology

namespace Entries

variable {α : Type} {form : String → String}

theorem find?_eq_none_iff {key : String} {es : List (String × α)} :
    find? form key es = none ↔ form key ∉ forms form es := by
  simp [find?, forms]

theorem find?_eq_some_iff {key : String} {es : List (String × α)} (hn : (forms form es).Nodup)
    {e : String × α} : find? form key es = some e ↔ e ∈ es ∧ form e.1 = form key := by
  have hfound : ∀ {d}, find? form key es = some d → d ∈ es ∧ form d.1 = form key := by
    intro d hd
    have hkey := List.find?_some (p := fun e : String × α => form e.1 = form key) hd
    exact ⟨List.mem_of_find?_eq_some hd, of_decide_eq_true hkey⟩
  refine ⟨hfound, fun ⟨he, hk⟩ => ?_⟩
  rcases hf : find? form key es with _ | d
  · exact absurd (List.mem_map.2 ⟨e, he, hk⟩) (find?_eq_none_iff.1 hf)
  · obtain ⟨hd, hkd⟩ := hfound hf
    rw [List.inj_on_of_nodup_map hn hd he (hkd.trans hk.symm)]

theorem put_of_not_mem {key : String} {value : α} {es : List (String × α)}
    (h : form key ∉ forms form es) : put form key value es = es ++ [(key, value)] := by
  induction es with
  | nil => rfl
  | cons e es ih =>
    rw [forms, List.map_cons, List.mem_cons, not_or] at h
    simp only [put, Ne.symm h.1, if_false, List.cons_append]
    rw [ih h.2]

theorem lookup_cons_eq_ite {κ : Type} [BEq κ] [LawfulBEq κ] [DecidableEq κ] (k : κ) (e : κ × α)
    (es : List (κ × α)) : (e :: es).lookup k = if k = e.1 then some e.2 else es.lookup k := by
  rw [List.lookup_cons]
  by_cases h : k = e.1
  · simp [h]
  · rw [beq_eq_false_iff_ne.2 h, if_neg h]

theorem lookup_insertSorted (key k : String) (value : α) (es : List (String × α)) :
    (insertSorted key value es).lookup k = if k = key then some value else es.lookup k := by
  induction es with
  | nil => rw [insertSorted, lookup_cons_eq_ite]
  | cons e es ih =>
    rw [lookup_cons_eq_ite k e es]
    by_cases hlt : key < e.1
    · rw [insertSorted, if_pos hlt, lookup_cons_eq_ite, lookup_cons_eq_ite]
    by_cases heq : e.1 = key
    · rw [insertSorted, if_neg hlt, if_pos heq, lookup_cons_eq_ite, heq]
      by_cases hk : k = key
      · rw [if_pos hk, if_pos hk]
      · rw [if_neg hk, if_neg hk, if_neg hk]
    · rw [insertSorted, if_neg hlt, if_neg heq, lookup_cons_eq_ite, ih]
      by_cases hk : k = key
      · rw [if_neg (fun h => heq (h.symm.trans hk)), if_pos hk, if_pos hk]
      · rw [if_neg hk, if_neg hk]

theorem nodup_of_sorted {es : List (String × α)} (h : Sorted es) : (es.map (·.1)).Nodup :=
  List.pairwise_map.2 (h.imp String.ne_of_lt)

/-- A key above all others goes to the end. -/
theorem insertSorted_of_below {key : String} {value : α} :
    ∀ {es : List (String × α)}, (∀ e ∈ es, e.1 < key) →
      insertSorted key value es = es ++ [(key, value)]
  | [], _ => rfl
  | e :: es, h => by
    have he := h e List.mem_cons_self
    have hnot : ¬ key < e.1 := fun hlt => String.lt_irrefl _ (String.lt_trans he hlt)
    have hne : e.1 ≠ key := fun heq => String.lt_irrefl _ (heq ▸ he)
    have ih : insertSorted key value es = es ++ [(key, value)] :=
      insertSorted_of_below fun d hd => h d (List.mem_cons_of_mem _ hd)
    rw [insertSorted, if_neg hnot, if_neg hne, ih, List.cons_append]

end Entries

namespace OrderedMap

variable {α β : Type} {form : String → String}

theorem entries_putAll_of_new {m : OrderedMap form α} : ∀ {es : List (String × α)},
    (Entries.forms form es).Nodup →
    (∀ e ∈ es, form e.1 ∉ Entries.forms form m.entries) → (m.putAll es).entries = m.entries ++ es
  | [], _, _ => by simp [putAll]
  | e :: es, hn, hd => by
    rw [Entries.forms, List.map_cons, List.nodup_cons] at hn
    have he : (m.put e.1 e.2).entries = m.entries ++ [e] :=
      Entries.put_of_not_mem (hd e (by simp))
    have hrest : ∀ d ∈ es, form d.1 ∉ Entries.forms form (m.put e.1 e.2).entries := by
      intro d hdm hm
      rw [he, Entries.forms, List.map_append, List.mem_append] at hm
      rcases hm with hm | hm
      · exact hd d (by simp [hdm]) hm
      · simp only [List.map_cons, List.map_nil, List.mem_singleton] at hm
        exact hn.1 (hm ▸ List.mem_map_of_mem hdm)
    have := entries_putAll_of_new hn.2 hrest
    simp only [putAll, List.foldl_cons] at this ⊢
    rw [this, he, List.append_assoc, List.singleton_append]

/-- Keys of distinct forms are distinct. -/
theorem nodup_keys (m : OrderedMap form α) : m.keys.Nodup := by
  refine List.Nodup.of_map form ?_
  rw [keys, List.map_map]
  exact m.nodup

theorem entries_ofList {es : List (String × α)} (h : (Entries.forms form es).Nodup) :
    (ofList es : OrderedMap form α).entries = es :=
  entries_putAll_of_new h fun _ _ => List.not_mem_nil

@[simp]
theorem ofList_entries (m : OrderedMap form α) : ofList m.entries = m :=
  ext (entries_ofList m.nodup)

theorem eq_empty_of_isEmpty {m : OrderedMap form α} (h : m.isEmpty = true) : m = ∅ :=
  ext (List.isEmpty_iff.1 h)

theorem mapValues_id (m : OrderedMap form α) : m.mapValues (fun a => a) = m :=
  ext (List.map_id m.entries)

@[simp]
theorem empty_overlay (m : OrderedMap form α) : (∅ : OrderedMap form α).overlay m = m :=
  ofList_entries m

theorem get?_eq_none_iff {m : OrderedMap form α} {key : String} :
    m.get? key = none ↔ form key ∉ Entries.forms form m.entries := by
  rw [get?, Option.map_eq_none_iff, Entries.find?_eq_none_iff]

theorem traverseEntries_eq_ok_iff {ε : Type} {f : String → α → Except ε β} :
    ∀ {es : List (String × α)} {bs : List (String × β)}, traverseEntries f es = .ok bs ↔
      List.Forall₂ (fun e b => b.1 = e.1 ∧ f e.1 e.2 = .ok b.2) es bs
  | [], bs => by simp [traverseEntries, eq_comm]
  | e :: es, bs => by
    rw [List.forall₂_cons_left_iff]
    unfold traverseEntries
    rcases hf : f e.1 e.2 with failure | b
    · simp
    · rcases ht : traverseEntries f es with failure | cs
      · simp only [reduceCtorEq, false_iff]
        rintro ⟨c, cs, -, hcs, -⟩
        rw [traverseEntries_eq_ok_iff.2 hcs] at ht
        simp at ht
      · simp only [Except.ok.injEq]
        constructor
        · rintro rfl
          exact ⟨_, _, ⟨rfl, rfl⟩, traverseEntries_eq_ok_iff.1 ht, rfl⟩
        · rintro ⟨c, cs', ⟨hc, rfl⟩, hcs, rfl⟩
          rw [traverseEntries_eq_ok_iff.2 hcs, Except.ok.injEq] at ht
          simp [ht, ← hc]

/-- The first entry that fails decides the failure. -/
theorem traverseEntries_eq_error_iff {ε : Type} {f : String → α → Except ε β} {failure : ε}
    {es : List (String × α)} : traverseEntries f es = .error failure ↔
      ∃ before e after, es = before ++ e :: after ∧ (∀ d ∈ before, ∃ b, f d.1 d.2 = .ok b) ∧
        f e.1 e.2 = .error failure := by
  constructor
  · intro h
    induction es with
    | nil => cases h
    | cons e es ih =>
      unfold traverseEntries at h
      rcases hf : f e.1 e.2 with failure' | b <;> simp only [hf] at h
      · cases h
        exact ⟨[], e, es, rfl, by simp, hf⟩
      · rcases hes : traverseEntries f es with failure' | bs <;> rw [hes] at h <;> cases h
        obtain ⟨before, d, after, rfl, hbefore, hd⟩ := ih hes
        exact ⟨e :: before, d, after, rfl, List.forall_mem_cons.2 ⟨⟨b, hf⟩, hbefore⟩, hd⟩
  · rintro ⟨before, e, after, rfl, hbefore, he⟩
    induction before with
    | nil => simp [traverseEntries, he]
    | cons d before ih =>
      obtain ⟨b, hb⟩ := hbefore d List.mem_cons_self
      have hrest := ih fun x hx => hbefore x (List.mem_cons_of_mem _ hx)
      simp [traverseEntries, hb, hrest]

theorem traverse_eq_ok_iff {ε : Type} {f : String → α → Except ε β} {m : OrderedMap form α}
    {n : OrderedMap form β} : m.traverse f = .ok n ↔
      List.Forall₂ (fun e b => b.1 = e.1 ∧ f e.1 e.2 = .ok b.2) m.entries n.entries := by
  rw [← traverseEntries_eq_ok_iff]
  unfold traverse
  split
  · next hs => simp [hs]
  · next hs =>
    simp only [hs, Except.ok.injEq]
    constructor
    · rintro rfl
      rfl
    · intro h
      apply ext
      exact h

theorem traverse_eq_error_iff {ε : Type} {f : String → α → Except ε β} {m : OrderedMap form α}
    {failure : ε} : m.traverse f = .error failure ↔
      ∃ before e after, m.entries = before ++ e :: after ∧
        (∀ d ∈ before, ∃ b, f d.1 d.2 = .ok b) ∧ f e.1 e.2 = .error failure := by
  rw [← traverseEntries_eq_error_iff]
  unfold traverse
  split
  · next hs => simp [hs]
  · next hs => simp [hs]

end OrderedMap

namespace Registry

variable {α β : Type}

theorem get?_eq_some_iff {m : Registry α} {key : String} {value : α} :
    m.get? key = some value ↔ (key, value) ∈ m.entries := by
  rw [OrderedMap.get?, Option.map_eq_some_iff]
  simp only [Entries.find?_eq_some_iff m.nodup, id]
  constructor
  · rintro ⟨⟨k, v⟩, ⟨he, rfl⟩, rfl⟩
    exact he
  · exact fun h => ⟨_, ⟨h, rfl⟩, rfl⟩

theorem get?_put (m : Registry α) (key k : String) (value : α) :
    (m.put key value).get? k = if key = k then some value else m.get? k :=
  OrderedMap.get?_put m key k value

theorem keys_put (m : Registry α) (key : String) (value : α) :
    (m.put key value).keys = if key ∈ m.keys then m.keys else m.keys ++ [key] :=
  OrderedMap.forms_put m key value

theorem mem_keys_iff {m : Registry α} {key : String} :
    key ∈ m.keys ↔ ∃ value, m.get? key = some value := by
  simp only [get?_eq_some_iff, OrderedMap.keys, List.mem_map, Prod.exists, exists_and_right,
    exists_eq_right]

/-- A registry is its keys, each with the value under it. -/
theorem entries_eq_map_keys {m : Registry α} {f : String → α}
    (h : ∀ key value, m.get? key = some value → value = f key) :
    m.entries = m.keys.map fun key => (key, f key) := by
  rw [OrderedMap.keys, List.map_map]
  conv_lhs => rw [← List.map_id m.entries]
  refine List.map_congr_left fun e he => ?_
  rw [id, Function.comp_apply, ← h e.1 e.2 (get?_eq_some_iff.2 he)]

theorem mem_keys_put {m : Registry α} {key k : String} {value : α} :
    k ∈ (m.put key value).keys ↔ k ∈ m.keys ∨ k = key := by
  rw [keys_put]
  split_ifs with h
  · refine (or_iff_left_of_imp ?_).symm
    rintro rfl
    exact h
  · rw [List.mem_append, List.mem_singleton]

theorem mem_keys_putNew {m : Registry α} {key k : String} {value : α} :
    k ∈ (m.putNew key value).keys ↔ k ∈ m.keys ∨ k = key := by
  unfold OrderedMap.putNew OrderedMap.contains
  split_ifs with h
  · refine (or_iff_left_of_imp ?_).symm
    rintro rfl
    exact mem_keys_iff.2 (Option.isSome_iff_exists.1 h)
  · exact mem_keys_put

/-- To write once more what stands under a key changes nothing. -/
theorem put_eq_self {m : Registry α} {key : String} {value : α} (h : m.get? key = some value) :
    m.put key value = m := by
  have hput : ∀ {es : List (String × α)}, (Entries.forms id es).Nodup → (key, value) ∈ es →
      Entries.put id key value es = es := by
    intro es hn hmem
    induction es with
    | nil => cases hmem
    | cons e es ih =>
      rw [Entries.forms, List.map_cons, List.nodup_cons] at hn
      rcases List.mem_cons.1 hmem with rfl | hmem
      · simp [Entries.put]
      · have hne : id e.1 ≠ id key := fun hk => hn.1 (hk ▸ List.mem_map_of_mem hmem)
        rw [Entries.put, if_neg hne, ih hn.2 hmem]
  exact OrderedMap.ext (hput m.nodup (get?_eq_some_iff.1 h))

theorem putNew_eq_self {m : Registry α} {key : String} {value : α} (h : key ∈ m.keys) :
    m.putNew key value = m := by
  obtain ⟨v, hv⟩ := mem_keys_iff.1 h
  simp [OrderedMap.putNew, OrderedMap.contains, hv]

theorem filter_entries (m : Registry α) (key : String) :
    m.entries.filter (·.1 == key) = ((m.get? key).map fun v => (key, v)).toList := by
  have hpass : ∀ e : String × α, e ∈ m.entries.filter (·.1 == key) ↔
      m.get? key = some e.2 ∧ e.1 = key := by
    intro e
    rw [List.mem_filter, beq_iff_eq, get?_eq_some_iff]
    constructor
    · rintro ⟨he, rfl⟩
      exact ⟨he, rfl⟩
    · rintro ⟨he, rfl⟩
      exact ⟨he, rfl⟩
  have hnodup : (m.entries.filter (·.1 == key)).Nodup := (List.Nodup.of_map _ m.nodup).filter _
  rcases hg : m.get? key with _ | v
  · rw [Option.map_none, Option.toList_none, List.eq_nil_iff_forall_not_mem]
    intro e he
    simpa [hg] using (hpass e).1 he
  · refine List.perm_singleton.1 ((List.perm_ext_iff_of_nodup hnodup (List.nodup_singleton _)).2 ?_)
    intro e
    rw [hpass, hg, List.mem_singleton, Option.some.injEq, Prod.ext_iff]
    exact ⟨fun ⟨h₁, h₂⟩ => ⟨h₂, h₁.symm⟩, fun ⟨h₁, h₂⟩ => ⟨h₂.symm, h₁⟩⟩

theorem keys_traverse {ε : Type} {f : String → α → Except ε β} {m : Registry α} {n : Registry β}
    (h : m.traverse f = .ok n) : n.keys = m.keys :=
  OrderedMap.keys_traverseEntries
    (OrderedMap.traverseEntries_eq_ok_iff.2 (OrderedMap.traverse_eq_ok_iff.1 h))

theorem get?_traverse {ε : Type} {f : String → α → Except ε β} {m : Registry α} {n : Registry β}
    (h : m.traverse f = .ok n) {key : String} {b : β} (hb : n.get? key = some b) :
    ∃ a, m.get? key = some a ∧ f key a = .ok b := by
  rw [get?_eq_some_iff] at hb
  obtain ⟨i, hi, hget⟩ := List.mem_iff_getElem.1 hb
  have hf := List.forall₂_iff_get.1 (OrderedMap.traverse_eq_ok_iff.1 h)
  have hi' : i < m.entries.length := by
    have := hf.1
    omega
  obtain ⟨hk, hv⟩ := hf.2 i hi' hi
  simp only [List.get_eq_getElem, hget] at hk hv
  refine ⟨m.entries[i].2, get?_eq_some_iff.2 ?_, hk ▸ hv⟩
  rw [hk]
  exact List.getElem_mem hi'

/-- Entries that are kept under their keys, some of them left out. -/
theorem lookup_filterMap (m : Registry α) (f : String → α → Option β) (key : String) :
    (m.entries.filterMap fun (name, a) => (f name a).map fun b => (name, b)).lookup key =
      (m.get? key).bind (f key) := by
  have hentries : ∀ {es : List (String × α)}, (Entries.forms id es).Nodup →
      (es.filterMap fun (name, a) => (f name a).map fun b => (name, b)).lookup key =
        (Entries.find? id key es).bind fun e => f key e.2 := by
    intro es hn
    induction es with
    | nil => rfl
    | cons e es ih =>
      rw [Entries.forms, List.map_cons, List.nodup_cons] at hn
      by_cases hk : e.1 = key
      · subst hk
        have hnone := ih hn.2
        rw [Entries.find?_eq_none_iff.2 hn.1, Option.bind_none] at hnone
        rw [Entries.find?_cons, if_pos rfl, List.filterMap_cons]
        cases hf : f e.1 e.2 <;> simp [hf, hnone]
      · rw [Entries.find?_cons, if_neg (show ¬ id e.1 = id key from hk), ← ih hn.2,
          List.filterMap_cons]
        cases hf : f e.1 e.2 <;> simp [hf, Entries.lookup_cons_eq_ite, Ne.symm hk]
  rw [hentries m.nodup, OrderedMap.get?, Option.bind_map]
  rfl

end Registry

namespace SortedMap

variable {α : Type}

theorem get?_put (m : SortedMap α) (key k : String) (value : α) :
    (m.put key value).get? k = if k = key then some value else m.get? k :=
  Entries.lookup_insertSorted key k value m.entries

/-- Entries with distinct keys, written over a map, answer in front of it. -/
theorem get?_putAll (k : String) : ∀ (es : List (String × α)) (m : SortedMap α),
    (es.map (·.1)).Nodup → (m.putAll es).get? k = (es.lookup k <|> m.get? k)
  | [], m, _ => by simp [putAll]
  | e :: es, m, h => by
    rw [List.map_cons, List.nodup_cons] at h
    have ih := get?_putAll k es (m.put e.1 e.2) h.2
    simp only [putAll, List.foldl_cons] at ih ⊢
    rw [ih, get?_put, Entries.lookup_cons_eq_ite]
    by_cases hk : k = e.1
    · have hn : es.lookup k = none := by
        rw [List.lookup_eq_none_iff]
        intro d hd
        have hne : k ≠ d.1 := fun hkd => h.1 (hk ▸ hkd ▸ List.mem_map_of_mem hd)
        simpa using hne
      rw [hn, if_pos hk, if_pos hk]
      rfl
    · rw [if_neg hk, if_neg hk]

theorem entries_putAll_of_above : ∀ {es : List (String × α)} {m : SortedMap α}, Entries.Sorted es →
    (∀ e ∈ es, ∀ d ∈ m.entries, d.1 < e.1) → (m.putAll es).entries = m.entries ++ es
  | [], _, _, _ => by simp [putAll]
  | e :: es, m, .cons ha hs, h => by
    have he : (m.put e.1 e.2).entries = m.entries ++ [e] :=
      Entries.insertSorted_of_below (h e List.mem_cons_self)
    have hrest : ((m.put e.1 e.2).putAll es).entries = (m.put e.1 e.2).entries ++ es := by
      refine entries_putAll_of_above hs fun d hd c hc => ?_
      rw [he, List.mem_append, List.mem_singleton] at hc
      rcases hc with hc | rfl
      · exact h d (List.mem_cons_of_mem _ hd) c hc
      · exact ha d hd
    rw [he, List.append_assoc, List.singleton_append] at hrest
    exact hrest

/-- Two maps with the same entries are the same map. -/
theorem ext {m n : SortedMap α} (h : m.entries = n.entries) : m = n := by
  cases m
  cases h
  rfl

@[simp]
theorem ofList_entries (m : SortedMap α) : ofList m.entries = m :=
  ext (entries_putAll_of_above m.sorted fun _ _ _ hd => absurd hd List.not_mem_nil)

end SortedMap

end LocalTopology
