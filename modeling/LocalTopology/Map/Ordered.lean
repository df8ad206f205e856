/-!
# Maps that remember their order

A list of entries whose keys have distinct forms. Writing under a key of a form already present
replaces that entry in its place, spelling included, and any other key goes to the end, so an entry
stands where its key was first written and reads as it was last written (`get?_put`, `forms_put`).
The form of a key is the identity for exact keys and the folded case for keys that differ only in
case.
-/

namespace LocalTopology

namespace Entries

variable {α β : Type}

/-- Writes over the entry with a key of the same form, or adds one at the end. -/
def put (form : String → String) (key : String) (value : α) :
    List (String × α) → List (String × α)
  | [] => [(key, value)]
  | e :: es => if form e.1 = form key then (key, value) :: es else e :: put form key value es

/-- The entry with a key of the same form. -/
def find? (form : String → String) (key : String) (es : List (String × α)) : Option (String × α) :=
  es.find? fun e => form e.1 = form key

/-- The forms of the keys, in order. -/
def forms (form : String → String) (es : List (String × α)) : List String :=
  es.map fun e => form e.1

theorem forms_put (form : String → String) (key : String) (value : α) (es : List (String × α)) :
    forms form (put form key value es) =
      if form key ∈ forms form es then forms form es else forms form es ++ [form key] := by
  induction es with
  | nil => simp [put, forms]
  | cons e es ih =>
    by_cases h : form e.1 = form key
    · simp [put, forms, h]
    · have h' : ¬ form key = form e.1 := fun hk => h hk.symm
      have ih' : List.map (fun e => form e.1) (put form key value es) =
          if form key ∈ es.map (fun e => form e.1) then es.map (fun e => form e.1)
          else es.map (fun e => form e.1) ++ [form key] := ih
      by_cases hm : form key ∈ es.map (fun e => form e.1)
      · rw [if_pos hm] at ih'
        simp [put, forms, h, h', ih', hm]
      · rw [if_neg hm] at ih'
        simp [put, forms, h, h', ih', hm]

theorem nodup_forms_put {form : String → String} {key : String} {value : α}
    {es : List (String × α)} (h : (forms form es).Nodup) :
    (forms form (put form key value es)).Nodup := by
  rw [forms_put]
  split
  · exact h
  · next hm =>
    rw [List.nodup_append]
    refine ⟨h, by simp, ?_⟩
    intro a ha b hb
    rw [List.mem_singleton] at hb
    subst hb
    exact fun hab => hm (hab ▸ ha)

theorem find?_cons (form : String → String) (key : String) (e : String × α)
    (es : List (String × α)) :
    find? form key (e :: es) = if form e.1 = form key then some e else find? form key es := by
  by_cases h : form e.1 = form key <;> simp [find?, h]

theorem find?_put (form : String → String) (key k : String) (value : α)
    (es : List (String × α)) :
    find? form k (put form key value es) =
      if form key = form k then some (key, value) else find? form k es := by
  induction es with
  | nil => rw [put, find?_cons]
  | cons e es ih =>
    by_cases h : form e.1 = form key
    · by_cases hk : form key = form k <;> simp [put, find?_cons, h, hk]
    · rw [put, if_neg h, find?_cons, find?_cons, ih]
      by_cases hk : form key = form k
      · rw [if_pos hk, if_pos hk, if_neg fun he => h (he.trans hk.symm)]
      · rw [if_neg hk, if_neg hk]

end Entries

/-- A map from keys to values that remembers the order of its keys. -/
structure OrderedMap (form : String → String) (α : Type) where
  entries : List (String × α)
  nodup : (Entries.forms form entries).Nodup
  deriving DecidableEq

namespace OrderedMap

variable {form : String → String} {α β : Type}

/-- The map without entries. -/
def empty : OrderedMap form α := ⟨[], by simp [Entries.forms]⟩

instance : EmptyCollection (OrderedMap form α) := ⟨empty⟩

instance : Inhabited (OrderedMap form α) := ⟨empty⟩

/-- Two maps with the same entries in the same order are the same map. -/
theorem ext {m n : OrderedMap form α} (h : m.entries = n.entries) : m = n := by
  cases m; cases n; simp_all

/-- Writes a value under a key. -/
def put (m : OrderedMap form α) (key : String) (value : α) : OrderedMap form α :=
  ⟨Entries.put form key value m.entries, Entries.nodup_forms_put m.nodup⟩

/-- The value under a key. -/
def get? (m : OrderedMap form α) (key : String) : Option α :=
  (Entries.find? form key m.entries).map (·.2)

/-- Whether there is a value under a key. -/
def contains (m : OrderedMap form α) (key : String) : Bool :=
  (m.get? key).isSome

/-- Writes a value under a key that has none yet. -/
def putNew (m : OrderedMap form α) (key : String) (value : α) : OrderedMap form α :=
  if m.contains key then m else m.put key value

/-- Writes the pairs one after the other. -/
def putAll (m : OrderedMap form α) (pairs : List (String × α)) : OrderedMap form α :=
  pairs.foldl (fun m p => m.put p.1 p.2) m

/-- Collects pairs, each under its key. -/
def ofList (pairs : List (String × α)) : OrderedMap form α :=
  empty.putAll pairs

/-- Writes every entry of another map over this one. -/
def overlay (m top : OrderedMap form α) : OrderedMap form α :=
  m.putAll top.entries

/-- The entries with other values, or the first failure among them. -/
def traverseEntries {ε : Type} (f : String → α → Except ε β) :
    List (String × α) → Except ε (List (String × β))
  | [] => .ok []
  | e :: es =>
    match f e.1 e.2 with
    | .error failure => .error failure
    | .ok b =>
      match traverseEntries f es with
      | .error failure => .error failure
      | .ok bs => .ok ((e.1, b) :: bs)

theorem keys_traverseEntries {ε : Type} {f : String → α → Except ε β} :
    ∀ {es : List (String × α)} {bs : List (String × β)}, traverseEntries f es = .ok bs →
      bs.map (·.1) = es.map (·.1)
  | [], bs, h => by simp [traverseEntries] at h; simp [← h]
  | e :: es, bs, h => by
    unfold traverseEntries at h
    split at h
    · cases h
    · split at h
      · cases h
      · next hs =>
        cases h
        simp [keys_traverseEntries hs]

theorem forms_eq_of_keys_eq {es : List (String × α)} {bs : List (String × β)}
    (h : bs.map (·.1) = es.map (·.1)) : Entries.forms form bs = Entries.forms form es := by
  have := congrArg (List.map form) h
  simpa [Entries.forms, Function.comp_def] using this

/-- The same keys with other values, or the first failure among them. -/
def traverse {ε : Type} (f : String → α → Except ε β) (m : OrderedMap form α) :
    Except ε (OrderedMap form β) :=
  match h : traverseEntries f m.entries with
  | .error failure => .error failure
  | .ok entries => .ok ⟨entries, forms_eq_of_keys_eq (keys_traverseEntries h) ▸ m.nodup⟩

/-- How many entries there are. -/
def size (m : OrderedMap form α) : Nat :=
  m.entries.length

/-- Whether there is no entry. -/
def isEmpty (m : OrderedMap form α) : Bool :=
  m.entries.isEmpty

/-- The keys, in order and as they are spelled. -/
def keys (m : OrderedMap form α) : List String :=
  m.entries.map (·.1)

/-- The same keys with other values. -/
def mapValues (f : α → β) (m : OrderedMap form α) : OrderedMap form β :=
  ⟨m.entries.map fun e => (e.1, f e.2), by
    have h := m.nodup
    simpa [Entries.forms, Function.comp_def] using h⟩

@[simp]
theorem get?_empty (key : String) : (empty : OrderedMap form α).get? key = none := rfl

theorem get?_put (m : OrderedMap form α) (key k : String) (value : α) :
    (m.put key value).get? k = if form key = form k then some value else m.get? k := by
  simp only [put, get?, Entries.find?_put]
  split <;> rfl

theorem forms_put (m : OrderedMap form α) (key : String) (value : α) :
    Entries.forms form (m.put key value).entries =
      if form key ∈ Entries.forms form m.entries then Entries.forms form m.entries
      else Entries.forms form m.entries ++ [form key] :=
  Entries.forms_put form key value m.entries

end OrderedMap

/-- A map whose keys are compared exactly. -/
abbrev Registry (α : Type) := OrderedMap id α

end LocalTopology
