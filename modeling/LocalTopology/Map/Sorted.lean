/-!
# Maps sorted by their keys

A list of entries with strictly increasing keys, so a map is determined by what it holds.
-/

namespace LocalTopology

namespace Entries

variable {α : Type}

/-- Writes over the entry under the key, or adds one where the order puts it. -/
def insertSorted (key : String) (value : α) : List (String × α) → List (String × α)
  | [] => [(key, value)]
  | e :: es =>
    if key < e.1 then (key, value) :: e :: es
    else if e.1 = key then (key, value) :: es
    else e :: insertSorted key value es

/-- Every key of the entries is greater than `low`. -/
def Above (low : String) (es : List (String × α)) : Prop :=
  ∀ e ∈ es, low < e.1

theorem above_insertSorted {low key : String} {value : α} {es : List (String × α)}
    (hk : low < key) (h : Above low es) : Above low (insertSorted key value es) := by
  induction es with
  | nil => intro e he; simp [insertSorted] at he; simp [he, hk]
  | cons d ds ih =>
    have hd : low < d.1 := h d (by simp)
    have hds : Above low ds := fun e he => h e (by simp [he])
    unfold insertSorted
    split
    · intro e he
      simp only [List.mem_cons] at he
      rcases he with rfl | rfl | he
      · exact hk
      · exact hd
      · exact hds e he
    · split
      · intro e he
        simp only [List.mem_cons] at he
        rcases he with rfl | he
        · exact hk
        · exact hds e he
      · intro e he
        simp only [List.mem_cons] at he
        rcases he with rfl | he
        · exact hd
        · exact ih hds e he

/-- The keys of the entries increase strictly. -/
def Sorted (es : List (String × α)) : Prop :=
  es.Pairwise (·.1 < ·.1)

theorem sorted_insertSorted {key : String} {value : α} :
    ∀ {es : List (String × α)}, Sorted es → Sorted (insertSorted key value es)
  | [], _ => List.pairwise_singleton _ _
  | d :: ds, .cons ha hs => by
    unfold insertSorted
    split
    · next hlt =>
      refine .cons ?_ (.cons ha hs)
      intro e he
      simp only [List.mem_cons] at he
      rcases he with rfl | he
      · exact hlt
      · exact String.lt_trans hlt (ha e he)
    · next hnlt =>
      split
      · next heq => exact .cons (fun e he => heq ▸ ha e he) hs
      · next hne =>
        refine .cons (above_insertSorted ?_ ha) (sorted_insertSorted hs)
        rcases Decidable.em (d.1 < key) with hlt | hnot
        · exact hlt
        · exact absurd (String.le_antisymm hnlt hnot) hne

end Entries

/-- A map sorted by its keys. -/
structure SortedMap (α : Type) where
  entries : List (String × α)
  sorted : Entries.Sorted entries

namespace SortedMap

variable {α : Type}

instance [DecidableEq α] : DecidableEq (SortedMap α) := fun m n =>
  if h : m.entries = n.entries then
    isTrue (by cases m; cases n; simp_all)
  else isFalse (fun hmn => h (by rw [hmn]))

/-- The map without entries. -/
def empty : SortedMap α := ⟨[], .nil⟩

instance : EmptyCollection (SortedMap α) := ⟨empty⟩

instance : Inhabited (SortedMap α) := ⟨empty⟩

/-- Writes a value under a key. -/
def put (m : SortedMap α) (key : String) (value : α) : SortedMap α :=
  ⟨Entries.insertSorted key value m.entries, Entries.sorted_insertSorted m.sorted⟩

/-- The value under a key. -/
def get? (m : SortedMap α) (key : String) : Option α :=
  m.entries.lookup key

/-- Writes the pairs one after the other. -/
def putAll (m : SortedMap α) (pairs : List (String × α)) : SortedMap α :=
  pairs.foldl (fun m p => m.put p.1 p.2) m

/-- Collects pairs, each under its key. -/
def ofList (pairs : List (String × α)) : SortedMap α :=
  empty.putAll pairs

end SortedMap

end LocalTopology
