import LocalTopology.Yaml.Printer
import LocalTopology.Yaml.Read
import LocalTopology.Yaml.Tree

/-!
# Texts that are written in other ways

A text that stands for text may as well be written plain (`Node.spells`). Readers do not tell
whether it is, neither in what they read nor in their faults: not those of scalars, and not those of
collections and records if the readers of their parts do not (`IgnoresSpelling`).
-/

namespace LocalTopology.Yaml

/-! ## Spellings of a tree -/

namespace Node

mutual

/-- Whether a node is another one, but that some of its texts are written plain. None has a tag. -/
def spells : Node → Node → Bool
  | .scalar none isPlain s, .scalar none isPlain' s' =>
    s == s' && (isPlain == isPlain' || (isPlain && Plain.atom s == .text s))
  | .sequence none ns, .sequence none ms => spellsItems ns ms
  | .mapping none es, .mapping none ds => spellsEntries es ds
  | _, _ => false

/-- Whether each node of a list spells that of another. -/
def spellsItems : List Node → List Node → Bool
  | [], [] => true
  | n :: ns, m :: ms => n.spells m && spellsItems ns ms
  | _, _ => false

/-- Whether each entry of a list spells that of another. -/
def spellsEntries : List (Node × Node) → List (Node × Node) → Bool
  | [], [] => true
  | (k, v) :: es, (l, w) :: ds => k.spells l && v.spells w && spellsEntries es ds
  | _, _ => false

end

/-- The text of a node is read as the node, but that some of its texts are written plain. -/
def ReadsBack (n : Node) : Prop :=
  ∃ m, ofBytes? n.render.toUTF8 = some m ∧ m.spells n = true

variable {n m : Node}

/-- What is read from the bytes of a text is read from its characters. -/
theorem readsBack_iff : n.ReadsBack ↔ (ofChars? n.render.toList).any (·.spells n) = true := by
  have hchars : String.fromUTF8? n.render.toUTF8 = some n.render := dif_pos n.render.isValidUTF8
  rw [ReadsBack, ofBytes?, hchars, Option.bind_some, Option.any_eq_true]

/-- The ways in which a node spells another. -/
inductive Spelling : Node → Node → Prop
  | same {n : Node} : Spelling n n
  | text {s : String} (stands : Plain.atom s = .text s) : Spelling (.ofPlain s) (.ofText s)
  | sequence {ns ms : List Node} (items : spellsItems ns ms = true) :
    Spelling (.sequence none ns) (.sequence none ms)
  | mapping {es ds : List (Node × Node)} (entries : spellsEntries es ds = true) :
    Spelling (.mapping none es) (.mapping none ds)

theorem spelling_of_spells (h : n.spells m = true) : Spelling n m := by
  unfold spells at h
  split at h
  · next isPlain s isPlain' s' =>
    simp only [Bool.and_eq_true, Bool.or_eq_true, beq_iff_eq] at h
    obtain ⟨rfl, rfl | ⟨rfl, hatom⟩⟩ := h
    · exact .same
    · cases isPlain'
      · exact .text hatom
      · exact .same
  · exact .sequence h
  · exact .mapping h
  · cases h

end Node

namespace Plain

variable {s : String}

/-- What stands for text stands for nothing else. -/
theorem of_atom_eq_text (h : atom s = .text s) :
    s.isEmpty = false ∧ nulls.contains s = false ∧ bool? s = none ∧ integer? s.toList = none := by
  unfold atom at h
  extract_lets cs at h
  split at h
  · cases h
  · next hnull =>
    rw [Bool.not_eq_true, Bool.or_eq_false_iff] at hnull
    rcases hbool : bool? s with _ | b <;> rw [hbool] at h
    · rcases hinteger : integer? cs with _ | i <;> rw [hinteger] at h
      · exact ⟨hnull.1, hnull.2, rfl, rfl⟩
      · cases h
    · cases h

end Plain

/-! ## What readers look at -/

variable {α β : Type} {n m : Node}

theorem mismatch_congr (expected : String) (h : n.spells m = true) :
    mismatch (α := α) expected n = mismatch expected m := by
  cases Node.spelling_of_spells h with
  | same => rfl
  | text hs =>
    simp only [Node.ofPlain, Node.ofText, mismatch, Scalar.value?, Scalar.atom?, hs]
    rfl
  | sequence | mapping => rfl

theorem isEmptyNode_congr (h : n.spells m = true) : isEmptyNode n = isEmptyNode m := by
  cases Node.spelling_of_spells h with
  | same => rfl
  | text hs => exact (Plain.of_atom_eq_text hs).1
  | sequence | mapping => rfl

theorem stepOf_congr (h : n.spells m = true) : stepOf n = stepOf m := by
  cases Node.spelling_of_spells h <;> rfl

/-! ## Readers -/

/-- A reader that does not tell whether texts are written plain. -/
def IgnoresSpelling (read : Reader α) : Prop :=
  ∀ (p : Place) (n m : Node), n.spells m = true → read p n = read p m

theorem ignoresSpelling_readText (expected : String) : IgnoresSpelling (readText expected) := by
  intro p n m h
  cases Node.spelling_of_spells h <;> rfl

theorem ignoresSpelling_readBool : IgnoresSpelling readBool := by
  intro p n m h
  have hmismatch := mismatch_congr (α := Bool) "a boolean" h
  cases Node.spelling_of_spells h with
  | same => rfl
  | text hs =>
    obtain ⟨-, -, hbool, -⟩ := Plain.of_atom_eq_text hs
    simp only [readBool, Node.ofPlain, hbool]
    exact congrArg (locate p) hmismatch
  | sequence | mapping => rfl

theorem ignoresSpelling_readNat (limit : Nat) (expected : String) :
    IgnoresSpelling (readNat limit expected) := by
  intro p n m h
  have hmismatch := mismatch_congr (α := Nat) expected h
  cases Node.spelling_of_spells h with
  | same => rfl
  | text hs =>
    obtain ⟨-, -, -, hinteger⟩ := Plain.of_atom_eq_text hs
    simp only [readNat, Node.ofPlain, hinteger]
    exact congrArg (locate p) hmismatch
  | sequence | mapping => rfl

namespace IgnoresSpelling

variable {read : Reader α}

theorem map (h : IgnoresSpelling read) (f : α → β) :
    IgnoresSpelling fun p n => do return f (← read p n) := by
  intro p n m hn
  simp only [h p n m hn]

theorem readOption (h : IgnoresSpelling read) : IgnoresSpelling (readOption read) := by
  intro p n m hn
  have hread := h p n m hn
  cases Node.spelling_of_spells hn with
  | same => rfl
  | text hs =>
    obtain ⟨hempty, hnull, -, -⟩ := Plain.of_atom_eq_text hs
    simp only [Yaml.readOption, Node.ofPlain, Node.ofText, hempty, hnull, Bool.or_self]
    exact congrArg (some <$> ·) hread
  | sequence | mapping => exact congrArg (some <$> ·) hread

theorem readItems (h : IgnoresSpelling read) (p : Place) : ∀ {ns ms : List Node} (index : Nat),
    Node.spellsItems ns ms = true → readItems p read index ns = readItems p read index ms
  | [], [], _, _ => rfl
  | n :: ns, m :: ms, index, hs => by
    rw [Node.spellsItems, Bool.and_eq_true] at hs
    rw [Yaml.readItems, Yaml.readItems, h _ n m hs.1, h.readItems p (index + 1) hs.2]

theorem readList (h : IgnoresSpelling read) : IgnoresSpelling (readList read) := by
  intro p n m hn
  have hmismatch := mismatch_congr (α := List α) "a sequence" hn
  have hempty := isEmptyNode_congr hn
  cases Node.spelling_of_spells hn with
  | same => rfl
  | text =>
    simp only [Yaml.readList, Node.ofPlain, Node.ofText] at hmismatch hempty ⊢
    rw [hmismatch, hempty]
  | sequence hs => simp only [Yaml.readList, h.readItems p 0 hs]
  | mapping => rfl

theorem readPairs (h : IgnoresSpelling read) (p : Place) : ∀ {es ds : List (Node × Node)},
    Node.spellsEntries es ds = true → readPairs p read es = readPairs p read ds
  | [], [], _ => rfl
  | (k, v) :: es, (l, w) :: ds, hs => by
    simp only [Node.spellsEntries, Bool.and_eq_true] at hs
    obtain ⟨⟨hk, hv⟩, hes⟩ := hs
    rw [Yaml.readPairs, Yaml.readPairs, ignoresSpelling_readText _ _ k l hk, stepOf_congr hk,
      h _ v w hv, h.readPairs p hes]

theorem readMapping (h : IgnoresSpelling read) : IgnoresSpelling (readMapping read) := by
  intro p n m hn
  have hmismatch := mismatch_congr (α := List (String × α)) "a map" hn
  have hempty := isEmptyNode_congr hn
  cases Node.spelling_of_spells hn with
  | same => rfl
  | text =>
    simp only [Yaml.readMapping, Node.ofPlain, Node.ofText] at hmismatch hempty ⊢
    rw [hmismatch, hempty]
  | sequence => rfl
  | mapping hs => simp only [Yaml.readMapping, h.readPairs p hs]

end IgnoresSpelling

/-! ## Records -/

section Records

variable {σ : Type} {step : σ → String → Reader σ}

theorem readFields_congr (known : List String) (h : ∀ s name, IgnoresSpelling (step s name))
    (p : Place) : ∀ {es ds : List (Node × Node)} (seen : List String) (s : σ),
    Node.spellsEntries es ds = true →
      readFields known (readText "field identifier" p)
          (fun s name k v => step s name (p.down (stepOf k)) v) seen s es =
        readFields known (readText "field identifier" p)
          (fun s name k v => step s name (p.down (stepOf k)) v) seen s ds
  | [], [], _, _, _ => rfl
  | (k, v) :: es, (l, w) :: ds, seen, s, hs => by
    simp only [Node.spellsEntries, Bool.and_eq_true] at hs
    obtain ⟨⟨hk, hv⟩, hes⟩ := hs
    have hrest := fun seen s => readFields_congr known h p seen s hes
    simp only [readFields, ignoresSpelling_readText _ _ k l hk, stepOf_congr hk, h _ _ _ v w hv,
      hrest]

theorem ignoresSpelling_readRecord (expected : String) (known required : List String) (start : σ)
    (h : ∀ s name, IgnoresSpelling (step s name)) :
    IgnoresSpelling (readRecord expected known required start step) := by
  intro p n m hn
  have hmismatch := mismatch_congr (α := List (Node × Node)) expected hn
  have hempty := isEmptyNode_congr hn
  cases Node.spelling_of_spells hn with
  | same => rfl
  | text =>
    simp only [readRecord, Node.ofPlain, Node.ofText] at hmismatch hempty ⊢
    rw [hmismatch, hempty]
  | sequence => rfl
  | mapping hs =>
    have hfields := readFields_congr known h p [] start hs
    simp only [readRecord]
    refine congrArg (locate p) (bind_congr fun _ => ?_)
    exact congrArg (· >>= fun r => do requireFields required r.1; return r.2) hfields

end Records

end LocalTopology.Yaml
