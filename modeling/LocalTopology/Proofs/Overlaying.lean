import LocalTopology.Proofs.Maps
import Mathlib.Data.List.Induction

/-!
# Maps on top of one another

What is written into a map pair by pair is told by the pairs: a key stands where one of its form was
first written (`OrderedMap.forms_ofList`), and under it stands what was last written
(`OrderedMap.find?_ofList`), so the entries are the latest pairs, in the order in which their forms
first occur (`OrderedMap.entries_ofList_eq_latest`). To write what a map has left of some pairs is
to write the pairs (`OrderedMap.putAll_entries_ofList`). So it does not matter how maps that lie on
top of one another are grouped (`OrderedMap.overlay_assoc`), and a map on top of itself is the map
(`OrderedMap.overlay_self`).
-/

namespace LocalTopology

/-! ## Lists without repetition -/

section Lists

variable {α : Type}

theorem eraseDups_concat [BEq α] [LawfulBEq α] (l : List α) (a : α) :
    (l ++ [a]).eraseDups = if a ∈ l then l.eraseDups else l.eraseDups ++ [a] := by
  rw [List.eraseDups_append]
  by_cases h : a ∈ l
  · simp [List.removeAll, h]
  · simp [List.removeAll, h, List.eraseDups_cons]

theorem nodup_eraseDups [BEq α] [LawfulBEq α] (l : List α) : l.eraseDups.Nodup := by
  induction l using List.reverseRecOn with
  | nil => exact List.nodup_nil
  | append_singleton l a ih =>
    rw [eraseDups_concat]
    split_ifs with h
    · exact ih
    · refine List.nodup_append.2 ⟨ih, List.nodup_singleton a, fun b hb c hc hbc => h ?_⟩
      rwa [← List.mem_singleton.1 hc, ← hbc, ← List.mem_eraseDups]

theorem eraseDups_of_nodup [BEq α] [LawfulBEq α] {l : List α} (h : l.Nodup) : l.eraseDups = l := by
  induction l using List.reverseRecOn with
  | nil => rfl
  | append_singleton l a ih =>
    obtain ⟨hl, -, hnew⟩ := List.nodup_append.1 h
    rw [eraseDups_concat, ih hl, if_neg]
    exact fun hm => hnew _ hm _ (List.mem_singleton_self a) rfl

theorem eraseDups_append_eraseDups [BEq α] [LawfulBEq α] (xs ys : List α) :
    (xs ++ ys.eraseDups).eraseDups = (xs ++ ys).eraseDups := by
  induction ys using List.reverseRecOn with
  | nil => rfl
  | append_singleton ys y ih =>
    rw [← List.append_assoc, eraseDups_concat, eraseDups_concat]
    by_cases hy : y ∈ ys
    · rw [if_pos hy, if_pos (List.mem_append_right xs hy), ih]
    · rw [if_neg hy, ← List.append_assoc, eraseDups_concat, ih]
      simp only [List.mem_append, List.mem_eraseDups]

theorem getLast?_replayed (xs ys : List α) : (xs ++ ys ++ ys).getLast? = (xs ++ ys).getLast? := by
  rw [List.getLast?_append, List.getLast?_append, ← Option.or_assoc, Option.or_self]

theorem eraseDups_replayed [BEq α] [LawfulBEq α] (xs ys : List α) :
    (xs ++ ys ++ ys).eraseDups = (xs ++ ys).eraseDups := by
  have hnone : ys.removeAll (xs ++ ys) = [] := by
    rw [List.removeAll, List.filter_eq_nil_iff]
    intro y hy
    simp [hy]
  rw [List.eraseDups_append, hnone, List.eraseDups_nil, List.append_nil]

end Lists

/-! ## Entries -/

namespace Entries

variable {α : Type} {form : String → String}

/-- The last pair of each form of a key, in the order in which the forms first occur. -/
def latest (form : String → String) (ps : List (String × α)) : List (String × α) :=
  (ps.map fun p => form p.1).eraseDups.filterMap fun k =>
    (ps.filter fun p => form p.1 = k).getLast?

/-- Entries are told by the forms of their keys, in order, and by what is found under each key. -/
theorem eq_of_find? : ∀ {es ds : List (String × α)}, (forms form es).Nodup →
    forms form es = forms form ds → (∀ key, find? form key es = find? form key ds) → es = ds
  | [], [], _, _, _ => rfl
  | [], _ :: _, _, h, _ => by cases h
  | _ :: _, [], _, h, _ => by cases h
  | e :: es, d :: ds, hnodup, hforms, hfind => by
    obtain ⟨hform, hrest⟩ : form e.1 = form d.1 ∧ forms form es = forms form ds :=
      List.cons.inj hforms
    obtain ⟨hnew, hnodup⟩ : form e.1 ∉ forms form es ∧ (forms form es).Nodup :=
      List.nodup_cons.1 hnodup
    have hhead : e = d := by
      have h := hfind e.1
      simpa [find?_cons, hform] using h
    have htail : ∀ key, find? form key es = find? form key ds := by
      intro key
      by_cases hk : form e.1 = form key
      · have hes : find? form key es = none := find?_eq_none_iff.2 (hk ▸ hnew)
        have hds : find? form key ds = none := find?_eq_none_iff.2 (hrest ▸ hk ▸ hnew)
        rw [hes, hds]
      · have h := hfind key
        rwa [find?_cons, if_neg hk, find?_cons, if_neg (hform ▸ hk)] at h
    rw [hhead, eq_of_find? hnodup hrest htail]

end Entries

/-! ## Maps -/

namespace OrderedMap

variable {α : Type} {form : String → String}

theorem putAll_append (m : OrderedMap form α) (ps qs : List (String × α)) :
    m.putAll (ps ++ qs) = (m.putAll ps).putAll qs :=
  List.foldl_append

theorem ofList_append (ps qs : List (String × α)) :
    (ofList (ps ++ qs) : OrderedMap form α) = (ofList ps).putAll qs :=
  putAll_append empty ps qs

theorem putAll_eq_ofList (m : OrderedMap form α) (ps : List (String × α)) :
    m.putAll ps = ofList (m.entries ++ ps) := by
  rw [ofList_append, ofList_entries]

/-- A key keeps the place where a key of its form was first written. -/
theorem forms_ofList (ps : List (String × α)) :
    Entries.forms form (ofList ps : OrderedMap form α).entries =
      (ps.map fun p => form p.1).eraseDups := by
  induction ps using List.reverseRecOn with
  | nil => rfl
  | append_singleton ps p ih =>
    rw [ofList_append, putAll, List.foldl_cons, List.foldl_nil, forms_put, ih, List.map_append,
      List.map_singleton, eraseDups_concat]
    simp only [List.mem_eraseDups]

/-- Under a key stands what was written last under a key of its form, spelling included. -/
theorem find?_ofList (key : String) (ps : List (String × α)) :
    Entries.find? form key (ofList ps : OrderedMap form α).entries =
      (ps.filter fun p => form p.1 = form key).getLast? := by
  induction ps using List.reverseRecOn with
  | nil => rfl
  | append_singleton ps p ih =>
    have hput : (ofList (ps ++ [p]) : OrderedMap form α).entries =
        Entries.put form p.1 p.2 (ofList ps : OrderedMap form α).entries := by
      rw [ofList_append]
      rfl
    rw [hput, Entries.find?_put, ih, List.filter_append]
    by_cases hp : form p.1 = form key <;> simp [hp]

theorem find?_entries (key : String) (m : OrderedMap form α) :
    Entries.find? form key m.entries =
      (m.entries.filter fun p => form p.1 = form key).getLast? := by
  rw [← find?_ofList, ofList_entries]

theorem entries_ofList_eq_latest (ps : List (String × α)) :
    (ofList ps : OrderedMap form α).entries = Entries.latest form ps := by
  have hself : ∀ e ∈ (ofList ps : OrderedMap form α).entries,
      (ps.filter fun p => form p.1 = form e.1).getLast? = some e := by
    intro e he
    rw [← find?_ofList]
    exact (Entries.find?_eq_some_iff (OrderedMap.nodup _)).2 ⟨he, rfl⟩
  rw [Entries.latest, ← forms_ofList, Entries.forms, List.filterMap_map]
  conv_lhs => rw [← List.filterMap_some (l := (ofList ps : OrderedMap form α).entries)]
  exact List.filterMap_congr fun e he => (hself e he).symm

theorem ofList_replayed (ps qs : List (String × α)) :
    (ofList (ps ++ qs ++ qs) : OrderedMap form α) = ofList (ps ++ qs) := by
  refine ext (Entries.eq_of_find? (OrderedMap.nodup _) ?_ fun key => ?_)
  · rw [forms_ofList, forms_ofList]
    simp only [List.map_append, eraseDups_replayed]
  · rw [find?_ofList, find?_ofList]
    simp only [List.filter_append, getLast?_replayed]

/-- To write what is left of pairs is to write the pairs. -/
theorem putAll_entries_ofList (m : OrderedMap form α) (ps : List (String × α)) :
    m.putAll (ofList ps : OrderedMap form α).entries = m.putAll ps := by
  rw [putAll_eq_ofList, putAll_eq_ofList]
  refine ext (Entries.eq_of_find? (OrderedMap.nodup _) ?_ fun key => ?_)
  · have hforms : (ofList ps : OrderedMap form α).entries.map (fun p => form p.1) =
        (ps.map fun p => form p.1).eraseDups := forms_ofList ps
    rw [forms_ofList, forms_ofList, List.map_append, List.map_append, hforms,
      eraseDups_append_eraseDups]
  · rw [find?_ofList, find?_ofList, List.filter_append, List.filter_append, List.getLast?_append,
      List.getLast?_append, ← find?_entries, find?_ofList]

theorem overlay_eq_ofList (m n : OrderedMap form α) :
    m.overlay n = ofList (m.entries ++ n.entries) :=
  putAll_eq_ofList m n.entries

theorem overlay_ofList (m : OrderedMap form α) (ps : List (String × α)) :
    m.overlay (ofList ps) = m.putAll ps :=
  putAll_entries_ofList m ps

/-- What lies on top answers first. -/
theorem get?_overlay (m n : OrderedMap form α) (key : String) :
    (m.overlay n).get? key = (n.get? key).or (m.get? key) := by
  rw [get?, overlay_eq_ofList, find?_ofList, List.filter_append, List.getLast?_append,
    ← find?_entries, ← find?_entries, Option.map_or]
  rfl

theorem overlay_assoc (l m n : OrderedMap form α) :
    (l.overlay m).overlay n = l.overlay (m.overlay n) := by
  rw [overlay_eq_ofList m n, overlay_ofList, putAll_append]
  rfl

@[simp]
theorem overlay_empty (m : OrderedMap form α) : m.overlay ∅ = m := rfl

@[simp]
theorem overlay_self (m : OrderedMap form α) : m.overlay m = m := by
  have h : (ofList ([] ++ m.entries ++ m.entries) : OrderedMap form α) =
      ofList ([] ++ m.entries) := ofList_replayed [] m.entries
  rwa [List.nil_append, ofList_entries, ← overlay_eq_ofList] at h

end OrderedMap

end LocalTopology
