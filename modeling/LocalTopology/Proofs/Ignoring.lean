import LocalTopology.Document.Fragment
import LocalTopology.Proofs.Maps

/-!
# Entries under unknown names

An entry under a text that names no field is added to a document that reads as a fragment. In the
document, its services and their ingresses nothing is read there (`tolerates_readRecord`). In a
runner or a dependency the entry is taken in with the rest before the kind is known, so there the
reading hinges on its value: it goes on as before where the value is data that can be taken in
(`exists_readValue_iff`), and is refused elsewhere (`hinges_splitEntries`). What the readers around
the mapping make of the value they get is the same in both readings, one lemma for each of them
(`Tolerates`), so the outcome for the whole document depends on nothing else
(`readFragment_of_extends`).
-/

namespace LocalTopology

namespace Document

open Yaml

variable {α β γ δ : Type}

/-! ## Outcomes -/

theorem bind_eq_ok_iff {o : Result α} {k : α → Result β} {b : β} :
    (o >>= k) = .ok b ↔ ∃ a, o = .ok a ∧ k a = .ok b := by
  cases o with
  | error fault => exact iff_of_false nofun nofun
  | ok a =>
    refine ⟨fun h => ⟨a, rfl, h⟩, ?_⟩
    rintro ⟨_, ⟨⟩, h⟩
    exact h

/-- One reading after another gives a value if both do, where the second does so or not whatever the
first one gives. -/
theorem exists_bind_iff {o : Result α} {k : α → Result β} {P : Prop}
    (hk : ∀ a, (∃ b, k a = .ok b) ↔ P) : (∃ b, (o >>= k) = .ok b) ↔ (∃ a, o = .ok a) ∧ P := by
  cases o with
  | error fault => exact iff_of_false nofun nofun
  | ok a => exact (hk a).trans ⟨fun h => ⟨⟨a, rfl⟩, h⟩, fun h => h.2⟩

theorem exists_map_iff {o : Result α} {f : α → β} :
    (∃ b, f <$> o = .ok b) ↔ ∃ a, o = .ok a := by
  cases o with
  | error fault => exact iff_of_false nofun nofun
  | ok a => exact iff_of_true ⟨f a, rfl⟩ ⟨a, rfl⟩

theorem locate_eq_ok_iff {p : Place} {o : Result α} {a : α} :
    locate p o = .ok a ↔ o = .ok a := by
  cases o with
  | error fault => exact ⟨nofun, nofun⟩
  | ok b => exact Iff.rfl

theorem exists_checkDepth_iff {p : Place} :
    (∃ u, checkDepth p = .ok u) ↔ 0 < depthLimit - p.depth := by
  unfold checkDepth
  split
  · exact iff_of_true ⟨(), rfl⟩ (by omega)
  · exact iff_of_false nofun (by omega)

/-! ## Taking in any data -/

/-- A key that is the text of a name, not a number or the like and without a tag of its own. -/
def IsText (k : Node) (name : String) : Prop :=
  ∃ tag isPlain, k = .scalar tag isPlain name ∧ ownTag? tag = none ∧
    Scalar.atom? tag isPlain name = .ok (.text name)

theorem IsText.readText {k : Node} {name : String} (h : IsText k name) (expected : String)
    (p : Place) : readText expected p k = .ok name := by
  obtain ⟨tag, isPlain, rfl, -, -⟩ := h
  rfl

theorem IsText.readValue {k : Node} {name : String} (h : IsText k name) (p : Place) :
    readValue .buffer p k = .ok (.text name) := by
  obtain ⟨tag, isPlain, rfl, htag, hatom⟩ := h
  simp only [Yaml.readValue, htag, Scalar.value?, hatom]
  rfl

/-- A node that can be taken in as a whole where there is room for so many levels: nothing in it has
a tag of its own or one that its text does not fit, is an integer beyond 64 bits, or is repeated too
often. -/
inductive IsData : Nat → Node → Prop
  | absent {room : Nat} : IsData room .absent
  | scalar {room : Nat} {tag : Option String} {isPlain : Bool} {text : String} {a : Atom}
    (untagged : ownTag? tag = none) (atom : Scalar.atom? tag isPlain text = .ok a)
    (narrow : ∀ i, a = .integer i → Found.isWide i = false) :
    IsData room (.scalar tag isPlain text)
  | sequence {room : Nat} {tag : Option String} {items : List Node} (untagged : ownTag? tag = none)
    (fits : 0 < room) (parts : ∀ n ∈ items, IsData (room - 1) n) :
    IsData room (.sequence tag items)
  | mapping {room : Nat} {tag : Option String} {entries : List (Node × Node)}
    (untagged : ownTag? tag = none) (fits : 0 < room)
    (keys : ∀ e ∈ entries, IsData (room - 1) e.1) (values : ∀ e ∈ entries, IsData (room - 1) e.2) :
    IsData room (.mapping tag entries)

theorem exists_value?_iff {tag : Option String} {isPlain : Bool} {text expected : String} :
    (∃ v, Scalar.value? tag isPlain text expected = .ok v) ↔
      ∃ a, Scalar.atom? tag isPlain text = .ok a ∧
        ∀ i, a = .integer i → Found.isWide i = false := by
  unfold Scalar.value?
  split
  · next hatom => exact ⟨nofun, fun ⟨_, ha, _⟩ => nomatch hatom.symm.trans ha⟩
  · next i hatom =>
    split
    · next hwide =>
      refine ⟨nofun, fun ⟨a, ha, hnarrow⟩ => ?_⟩
      have hfalse := hnarrow i (Except.ok.inj (ha.symm.trans hatom))
      cases hwide.symm.trans hfalse
    · next hwide =>
      refine iff_of_true ⟨_, rfl⟩ ⟨_, hatom, fun j hj => ?_⟩
      cases hj
      exact Bool.eq_false_iff.2 hwide
  · next a hinteger hatom =>
    refine iff_of_true ⟨_, rfl⟩ ⟨a, hatom, fun i hi => ?_⟩
    subst hi
    exact absurd rfl (hinteger i)

mutual

/-- What is taken in is data with room for its levels. -/
theorem exists_readValue_iff (p : Place) :
    ∀ n : Node, (∃ v, readValue .buffer p n = .ok v) ↔ IsData (depthLimit - p.depth) n
  | .absent => iff_of_true ⟨_, rfl⟩ .absent
  | .excess => iff_of_false nofun nofun
  | .scalar tag isPlain text => by
    simp only [readValue, locate_eq_ok_iff]
    cases htag : ownTag? tag with
    | some name =>
      refine iff_of_false nofun ?_
      rintro (_ | ⟨hnone, -, -⟩)
      cases htag.symm.trans hnone
    | none =>
      refine exists_value?_iff.trans ⟨fun ⟨a, ha, hnarrow⟩ => .scalar htag ha hnarrow, ?_⟩
      rintro (_ | ⟨-, ha, hnarrow⟩)
      exact ⟨_, ha, hnarrow⟩
  | .sequence tag items => by
    simp only [readValue, locate_eq_ok_iff]
    cases htag : ownTag? tag with
    | some name =>
      refine iff_of_false nofun ?_
      rintro (_ | _ | ⟨hnone, -, -⟩)
      cases htag.symm.trans hnone
    | none =>
      have hparts := exists_readValueItems_iff p 0 items
      refine (exists_bind_iff fun _ => exists_map_iff.trans hparts).trans ?_
      rw [exists_checkDepth_iff]
      refine ⟨fun ⟨hroom, hparts⟩ => .sequence htag hroom hparts, ?_⟩
      rintro (_ | _ | ⟨-, hroom, hparts⟩)
      exact ⟨hroom, hparts⟩
  | .mapping tag entries => by
    simp only [readValue, locate_eq_ok_iff]
    cases htag : ownTag? tag with
    | some name =>
      refine iff_of_false nofun ?_
      rintro (_ | _ | _ | ⟨hnone, -, -, -⟩)
      cases htag.symm.trans hnone
    | none =>
      have hparts := exists_readValueEntries_iff p [] entries
      refine (exists_bind_iff fun _ => exists_map_iff.trans hparts).trans ?_
      rw [exists_checkDepth_iff]
      refine ⟨fun ⟨hroom, hkeys, hvalues⟩ => .mapping htag hroom hkeys hvalues, ?_⟩
      rintro (_ | _ | _ | ⟨-, hroom, hkeys, hvalues⟩)
      exact ⟨hroom, hkeys, hvalues⟩

theorem exists_readValueItems_iff (p : Place) (index : Nat) :
    ∀ items : List Node, (∃ vs, readValueItems .buffer p index items = .ok vs) ↔
      ∀ n ∈ items, IsData (depthLimit - p.depth - 1) n
  | [] => iff_of_true ⟨_, rfl⟩ nofun
  | n :: items => by
    have hfirst := exists_readValue_iff (p.down (.item index)) n
    have hrest := exists_readValueItems_iff p (index + 1) items
    rw [List.forall_mem_cons, ← hrest, readValueItems]
    refine (exists_bind_iff fun v => ?_).trans (and_congr_left' hfirst)
    exact exists_map_iff (f := (v :: ·))

theorem exists_readValueEntries_iff (p : Place) (earlier : List Value) :
    ∀ entries : List (Node × Node),
      (∃ vs, readValueEntries .buffer p earlier entries = .ok vs) ↔
        (∀ e ∈ entries, IsData (depthLimit - p.depth - 1) e.1) ∧
          ∀ e ∈ entries, IsData (depthLimit - p.depth - 1) e.2
  | [] => iff_of_true ⟨_, rfl⟩ ⟨nofun, nofun⟩
  | (k, n) :: entries => by
    have hkey := exists_readValue_iff ⟨p.steps, p.depth + 1⟩ k
    have hvalue := exists_readValue_iff (p.down (stepOf k)) n
    have hrest := fun earlier => exists_readValueEntries_iff p earlier entries
    rw [List.forall_mem_cons, List.forall_mem_cons, and_and_and_comm, and_assoc, readValueEntries]
    refine (exists_bind_iff fun key => ?_).trans (and_congr_left' hkey)
    -- No key is refused for those before it.
    refine (exists_bind_iff fun _ => ?_).trans (and_iff_right ⟨(), rfl⟩)
    refine (exists_bind_iff fun value => ?_).trans (and_congr_left' hvalue)
    exact (exists_map_iff (f := ((key, value) :: ·))).trans (hrest (key :: earlier))

end

/-! ## Readings that hinge on a condition -/

/-- Where one reading gives a value, another one gives a related value if a condition holds, and a
fault if it does not. -/
def Hinges (c : Prop) (R : α → β → Prop) (o : Result α) (o' : Result β) : Prop :=
  ∀ a, o = .ok a → (c → ∃ b, o' = .ok b ∧ R a b) ∧ (¬c → ∃ fault, o' = .error fault)

namespace Hinges

variable {c : Prop} {R : α → β → Prop} {S : γ → δ → Prop} {o : Result α} {o' : Result β}

theorem ok {a : α} {b : β} (h : R a b) : Hinges True R (.ok a) (.ok b) := by
  rintro _ ⟨⟩
  exact ⟨fun _ => ⟨b, rfl, h⟩, fun hn => absurd trivial hn⟩

theorem refl (o : Result α) : Hinges True Eq o o :=
  fun a ha => ⟨fun _ => ⟨a, ha, rfl⟩, fun h => absurd trivial h⟩

theorem locate (p : Place) (h : Hinges c R o o') :
    Hinges c R (Yaml.locate p o) (Yaml.locate p o') := by
  intro a ha
  obtain ⟨hc, hn⟩ := h a (locate_eq_ok_iff.1 ha)
  refine ⟨fun hholds => ?_, fun hfails => ?_⟩
  · obtain ⟨b, rfl, hb⟩ := hc hholds
    exact ⟨b, rfl, hb⟩
  · obtain ⟨fault, rfl⟩ := hn hfails
    exact ⟨_, rfl⟩

/-- What is read after the part on which the reading hinges. -/
theorem bind {k : α → Result γ} {k' : β → Result δ} (h : Hinges c R o o')
    (hk : ∀ a b, o = .ok a → R a b → Hinges True S (k a) (k' b)) :
    Hinges c S (o >>= k) (o' >>= k') := by
  rcases o with fault | a
  · exact nofun
  intro g hg
  obtain ⟨hc, hn⟩ := h a rfl
  refine ⟨fun hholds => ?_, fun hfails => ?_⟩
  · obtain ⟨b, rfl, hb⟩ := hc hholds
    exact (hk a b rfl hb g hg).1 trivial
  · obtain ⟨fault, rfl⟩ := hn hfails
    exact ⟨fault, rfl⟩

theorem bind_eq {o o' : Result α} (h : Hinges c Eq o o') (k : α → Result γ) :
    Hinges c Eq (o >>= k) (o' >>= k) :=
  h.bind fun a _ _ he => he ▸ refl (k a)

/-- What is read before the part on which the reading hinges. -/
theorem after {k : α → Result γ} {k' : α → Result δ} (hk : ∀ a, Hinges c S (k a) (k' a)) :
    Hinges c S (o >>= k) (o >>= k') := by
  rcases o with fault | a
  · exact nofun
  · exact hk a

theorem guarded {g : Prop} [Decidable g] {cause : Cause} (h : Hinges c R o o') :
    Hinges c R (if g then fail cause else o) (if g then fail cause else o') := by
  split
  · exact nofun
  · exact h

end Hinges

/-- At a depth, a reader takes a node for the same value as one that it is related to if a condition
holds, and refuses it if it does not. -/
def Tolerates (read : Reader α) (depth : Nat) (c : Prop) (R : Node → Node → Prop) : Prop :=
  ∀ p : Place, p.depth = depth → ∀ n n', R n n' → Hinges c Eq (read p n) (read p n')

/-! ## Nodes that differ in one place -/

/-- A scalar with a text. -/
def IsScalar (text : String) (n : Node) : Prop :=
  ∃ tag isPlain, n = .scalar tag isPlain text

/-- A sequence differs from another in one item. -/
inductive InItem (R : Node → Node → Prop) : Node → Node → Prop
  | item {tag : Option String} {front back : List Node} {n n' : Node} (differ : R n n') :
    InItem R (.sequence tag (front ++ n :: back)) (.sequence tag (front ++ n' :: back))

/-- A mapping differs from another in the value under one key. -/
inductive InEntry (IsKey : Node → Prop) (R : Node → Node → Prop) : Node → Node → Prop
  | entry {tag : Option String} {front back : List (Node × Node)} {k n n' : Node} (key : IsKey k)
    (differ : R n n') :
    InEntry IsKey R (.mapping tag (front ++ (k, n) :: back))
      (.mapping tag (front ++ (k, n') :: back))

/-- A mapping has an entry more than another, under a text that is free among the others. -/
inductive Gains (IsFree : List (Node × Node) → String → Prop) (v : Node) : Node → Node → Prop
  | entry {tag : Option String} {front back : List (Node × Node)} {k : Node} {name : String}
    (text : IsText k name) (free : IsFree (front ++ back) name) :
    Gains IsFree v (.mapping tag (front ++ back)) (.mapping tag (front ++ (k, v) :: back))

section Tolerates

variable {read : Reader α} {depth : Nat} {c : Prop} {R : Node → Node → Prop}

namespace Tolerates

theorem map (h : Tolerates read depth c R) (f : α → β) :
    Tolerates (fun p n => do return f (← read p n)) depth c R :=
  fun p hp n n' hR => (h p hp n n' hR).bind_eq fun a => .ok (f a)

theorem option {IsFree : List (Node × Node) → String → Prop} {v : Node}
    (h : Tolerates read depth c (Gains IsFree v)) :
    Tolerates (readOption read) depth c (Gains IsFree v) := by
  rintro p hp _ _ ⟨htext, hfree⟩
  exact (h p hp _ _ ⟨htext, hfree⟩).bind_eq fun a => .ok (some a)

theorem readItems (h : Tolerates read (depth + 1) c R) {p : Place} (hp : p.depth = depth)
    {n n' : Node} (hR : R n n') (back : List Node) : ∀ (front : List Node) (index : Nat),
    Hinges c Eq (readItems p read index (front ++ n :: back))
      (Yaml.readItems p read index (front ++ n' :: back))
  | [], index => (h (p.down (.item index)) (congrArg (· + 1) hp) n n' hR).bind_eq _
  | _ :: front, index => .after fun _ => (readItems h hp hR back front (index + 1)).bind_eq _

theorem list (h : Tolerates read (depth + 1) c R) :
    Tolerates (readList read) depth c (InItem R) := by
  rintro p hp _ _ ⟨hR⟩
  exact .locate p (.after fun _ => h.readItems hp hR _ _ 0)

theorem readPairs (h : Tolerates read (depth + 1) c R) {p : Place} (hp : p.depth = depth)
    {k n n' : Node} (hR : R n n') (back : List (Node × Node)) : ∀ front : List (Node × Node),
    Hinges c Eq (readPairs p read (front ++ (k, n) :: back))
      (Yaml.readPairs p read (front ++ (k, n') :: back))
  | [] => .after fun _ => (h (p.down (stepOf k)) (congrArg (· + 1) hp) n n' hR).bind_eq _
  | _ :: front => .after fun _ => .after fun _ => (readPairs h hp hR back front).bind_eq _

theorem mapping (h : Tolerates read (depth + 1) c R) (IsKey : Node → Prop) :
    Tolerates (readMapping read) depth c (InEntry IsKey R) := by
  rintro p hp _ _ ⟨-, hR⟩
  exact .locate p (.after fun _ => h.readPairs hp hR _ _)

end Tolerates

variable {σ : Type} {known required : List String} {start : σ}
  {step : σ → String → Place → Node → Result σ} {name expected : String}

theorem hinges_readFields {p : Place} (hp : p.depth = depth)
    (h : ∀ s, Tolerates (step s name) (depth + 1) c R) (hname : name ∈ known) {k n n' : Node}
    (hk : IsScalar name k) (hR : R n n') (back : List (Node × Node)) :
    ∀ (front : List (Node × Node)) (seen : List String) (s : σ),
      Hinges c Eq
        (readFields known (readText "field identifier" p)
          (fun s name k v => step s name (p.down (stepOf k)) v) seen s (front ++ (k, n) :: back))
        (readFields known (readText "field identifier" p)
          (fun s name k v => step s name (p.down (stepOf k)) v) seen s (front ++ (k, n') :: back))
  | [], seen, s => by
    obtain ⟨tag, isPlain, rfl⟩ := hk
    have hknown : known.contains name = true := List.contains_iff_mem.2 hname
    show Hinges c Eq (if known.contains name then _ else _) (if known.contains name then _ else _)
    rw [if_pos hknown, if_pos hknown]
    exact .guarded ((h s _ (congrArg (· + 1) hp) n n' hR).bind_eq _)
  | _ :: front, seen, s => by
    refine .after fun field => ?_
    split
    · exact .guarded (.after fun s' => hinges_readFields hp h hname hk hR back front _ s')
    · exact hinges_readFields hp h hname hk hR back front seen s

theorem Tolerates.field (h : ∀ s, Tolerates (step s name) (depth + 1) c R) (hname : name ∈ known) :
    Tolerates (readRecord expected known required start step) depth c
      (InEntry (IsScalar name) R) := by
  rintro p hp _ _ ⟨hk, hR⟩
  refine .locate p (.after fun _ => ?_)
  exact (hinges_readFields hp h hname hk hR _ _ [] start).bind_eq fun r => do
    requireFields required r.1
    return r.2

/-- What stands under a name that a record does not know is not looked at. -/
theorem tolerates_readRecord (v : Node) :
    Tolerates (readRecord expected known required start step) depth True
      (Gains (fun _ name => name ∉ known) v) := by
  rintro p - _ _ ⟨htext, hfree⟩
  have hknown := Bool.eq_false_iff.2 (mt List.contains_iff_mem.1 hfree)
  simp only [readRecord, bind, Except.bind]
  rw [readFields_unknown (htext.readText _ p) hknown]
  exact .refl _

end Tolerates

/-! ## What a kind decides -/

/-- The entries of a mapping declare a kind. -/
def Declares (entries : List (Node × Node)) (kind : String) : Prop :=
  ∃ e ∈ entries, IsText e.1 "type" ∧ IsScalar kind e.2

theorem readKind_eq_ok {kinds : List String} {p : Place} {kind kind' : String} {n : Node}
    (hn : IsScalar kind n) (h : readKind kinds p n = .ok kind') : kind' = kind := by
  obtain ⟨tag, isPlain, rfl⟩ := hn
  have hread : (if kinds.contains kind then .ok kind else fail (.unknownVariant kind kinds)) =
      Except.ok kind' := locate_eq_ok_iff.1 h
  split at hread
  · exact (Except.ok.inj hread).symm
  · cases hread

/-- The kind that is set apart is the one from before or the one that the entries declare. -/
theorem kind_of_splitEntries {kinds : List String} {p : Place} :
    ∀ {entries : List (Node × Node)} {before : Option String}
      {result : Option String × List (Value × Value)},
      splitEntries kinds p before entries = .ok result →
        (before.isSome → result.1 = before) ∧
          ∀ kind, Declares entries kind → result.1 = some kind
  | [], before, result, h => by
    cases h
    exact ⟨fun _ => rfl, fun _ ⟨_, he, _⟩ => nomatch he⟩
  | (k, n) :: entries, before, result, h => by
    obtain ⟨key, hkey, h⟩ := bind_eq_ok_iff.1 h
    -- A kind is set apart once, as a second one is refused.
    split at h
    · split at h
      · cases h
      · next hbefore =>
        obtain ⟨name, hname, h⟩ := bind_eq_ok_iff.1 h
        obtain ⟨hkept, hdeclared⟩ := kind_of_splitEntries h
        refine ⟨fun hsome => absurd hsome hbefore, fun kind ⟨e, he, htype, hkind⟩ => ?_⟩
        rcases List.mem_cons.1 he with rfl | he
        · rw [hkept rfl, readKind_eq_ok hkind hname]
        · exact hdeclared kind ⟨e, he, htype, hkind⟩
    · next hother =>
      obtain ⟨value, -, h⟩ := bind_eq_ok_iff.1 h
      obtain ⟨rest, hrest, h⟩ := bind_eq_ok_iff.1 h
      cases h
      obtain ⟨hkept, hdeclared⟩ := kind_of_splitEntries hrest
      refine ⟨hkept, fun kind ⟨e, he, htype, hkind⟩ => hdeclared kind ⟨e, ?_, htype, hkind⟩⟩
      rcases List.mem_cons.1 he with rfl | he
      · cases hkey.symm.trans (htype.readValue _)
        exact absurd rfl hother
      · exact he

variable {v : Node} {name : String}

/-- A content has an entry more than another, under a name. -/
inductive GainsText (name : String) : List (Value × Value) → List (Value × Value) → Prop
  | entry (front back : List (Value × Value)) (value : Value) :
    GainsText name (front ++ back) (front ++ (.text name, value) :: back)

theorem GainsText.cons {es es' : List (Value × Value)} (e : Value × Value)
    (h : GainsText name es es') : GainsText name (e :: es) (e :: es') := by
  obtain ⟨front, back, value⟩ := h
  exact .entry (e :: front) back value

theorem hinges_splitEntries {kinds : List String} {p : Place} {k : Node} (hk : IsText k name)
    (hname : name ≠ "type") (back : List (Node × Node)) :
    ∀ (front : List (Node × Node)) (before : Option String),
      Hinges (IsData (depthLimit - (p.depth + 1)) v)
        (fun r r' => r.1 = r'.1 ∧ GainsText name r.2 r'.2)
        (splitEntries kinds p before (front ++ back))
        (splitEntries kinds p before (front ++ (k, v) :: back))
  | [], before => by
    have hkey := hk.readValue ⟨p.steps, p.depth + 1⟩
    have hvalue := exists_readValue_iff (p.down (stepOf k)) v
    have hsplit : splitEntries kinds p before ((k, v) :: back) = do
        let value ← readValue .buffer (p.down (stepOf k)) v
        let rest ← splitEntries kinds p before back
        return (rest.1, (.text name, value) :: rest.2) := by
      rw [splitEntries, hkey]
      simp only [bind, Except.bind]
      split
      · next heq => exact absurd (Value.text.inj heq) hname
      · rfl
    -- The entries behind the new one are taken in as they would be without it.
    intro r hr
    rw [List.nil_append] at hr ⊢
    rw [hsplit, hr]
    refine ⟨fun hdata => ?_, fun hdata => ?_⟩
    · obtain ⟨value, hread⟩ := hvalue.2 hdata
      rw [hread]
      exact ⟨_, rfl, rfl, .entry [] r.2 value⟩
    · rcases hread : readValue .buffer (p.down (stepOf k)) v with fault | value
      · exact ⟨fault, rfl⟩
      · exact absurd (hvalue.1 ⟨value, hread⟩) hdata
  | (k', n) :: front, before => by
    refine .after fun key => ?_
    split
    · exact .guarded (.after fun kind => hinges_splitEntries hk hname back front (some kind))
    · next hother =>
      refine .after fun value => (hinges_splitEntries hk hname back front before).bind ?_
      rintro ⟨kind, _⟩ ⟨_, _⟩ - ⟨rfl, hgains⟩
      exact .ok ⟨rfl, hgains.cons (key, value)⟩

theorem hinges_readKinded {expected : String} {kinds : List String} {p : Place}
    {tag : Option String} {front back : List (Node × Node)} {k : Node} (hk : IsText k name)
    (hname : name ≠ "type") :
    Hinges (IsData (depthLimit - (p.depth + 1)) v)
      (fun r r' => ∃ kind es es', r = ⟨kind, .mapping es⟩ ∧ r' = ⟨kind, .mapping es'⟩ ∧
        GainsText name es es' ∧ ∀ declared, Declares (front ++ back) declared → kind = declared)
      (readKinded expected kinds p (.mapping tag (front ++ back)))
      (readKinded expected kinds p (.mapping tag (front ++ (k, v) :: back))) := by
  refine .locate p (.guarded (.after fun _ => ?_))
  refine (hinges_splitEntries hk hname back front none).bind ?_
  rintro ⟨_ | kind, es⟩ ⟨_, es'⟩ hsplit ⟨rfl, hgains⟩
  · exact nofun
  · exact .ok ⟨kind, es, es', rfl, rfl, hgains,
      fun _ h => Option.some.inj ((kind_of_splitEntries hsplit).2 _ h)⟩

theorem GainsText.record_eq {σ : Type} {expected : String} {fields required : List String}
    {start : σ} {step : σ → String → Value → Result σ} {es es' : List (Value × Value)}
    (h : GainsText name es es') (hname : name ∉ fields) :
    record expected fields required start step (.mapping es') =
      record expected fields required start step (.mapping es) := by
  obtain ⟨front, back, value⟩ := h
  have hknown := Bool.eq_false_iff.2 (mt List.contains_iff_mem.1 hname)
  have hfield : fieldName fields (.text name) = .ok name := rfl
  simp only [record, readFields_unknown hfield hknown]

/-- The fields of a runner of a kind, its type aside. -/
def fieldsOfKind : String → List String
  | "docker" =>
    ["image", "containerPort", "hostPort", "protocol", "environment", "volumes", "command"]
  | "dotnet" => ["project", "port", "protocol", "workingDirectory", "environment"]
  | "executable" =>
    ["command", "arguments", "port", "protocol", "workingDirectory", "environment"]
  | "remote" => ["environments"]
  | _ => ["specification", "port", "environment"]

theorem GainsText.runnerOf_eq {kind : String} {es es' : List (Value × Value)}
    (h : GainsText name es es') (hname : name ∉ fieldsOfKind kind) :
    runnerOf ⟨kind, .mapping es'⟩ = runnerOf ⟨kind, .mapping es⟩ := by
  simp only [runnerOf]
  split
  · exact congrArg (Runner.container <$> ·) (h.record_eq hname)
  · exact congrArg (Runner.project <$> ·) (h.record_eq hname)
  · exact congrArg (Runner.executable <$> ·) (h.record_eq hname)
  · exact congrArg (Runner.remote <$> ·) (h.record_eq hname)
  · simp only [fieldsOfKind] at hname
    exact congrArg (Runner.mock <$> ·) (h.record_eq hname)

theorem tolerates_readRunner (v : Node) (depth : Nat) :
    Tolerates readRunner depth (IsData (depthLimit - (depth + 1)) v)
      (Gains (fun es name => ∃ kind, Declares es kind ∧ name ∉ "type" :: fieldsOfKind kind) v) := by
  rintro p rfl _ _ ⟨hk, declared, hdeclared, hfree⟩
  obtain ⟨hname, hfree⟩ := List.ne_and_not_mem_of_not_mem_cons hfree
  refine (hinges_readKinded hk hname).bind ?_
  rintro _ _ - ⟨kind, es, es', rfl, rfl, hgains, hkind⟩
  rw [hgains.runnerOf_eq (hkind _ hdeclared ▸ hfree)]
  exact .refl _

theorem tolerates_readDependency (v : Node) (depth : Nat) :
    Tolerates readDependency depth (IsData (depthLimit - (depth + 1)) v)
      (Gains (fun _ name => name ∉ ["type"]) v) := by
  rintro p rfl _ _ ⟨hk, hfree⟩
  refine (hinges_readKinded hk (List.ne_of_not_mem_cons hfree)).bind ?_
  rintro _ _ - ⟨kind, es, es', rfl, rfl, -, -⟩
  exact .refl _

/-! ## Documents -/

/-- The mappings of a document that have a fixed set of fields. -/
inductive Site
  | root
  | service
  | ingress
  | runner
  | dependency

/-- A document differs from another in one of its services. -/
def InService (R : Node → Node → Prop) : Node → Node → Prop :=
  InEntry (IsScalar "services") (InEntry (fun _ => True) R)

/-- A document has an entry more than another in one of its mappings, under a text that names no
field there. -/
def Site.Extends (v : Node) : Site → Node → Node → Prop
  | root => Gains (fun _ name => name ∉ ["name", "services", "dependencies"]) v
  | service => InService (Gains (fun _ name => name ∉ ["ingress", "runners", "healthcheck"]) v)
  | ingress =>
    InService (InEntry (IsScalar "ingress") (Gains (fun _ name => name ∉ ["host", "path"]) v))
  | runner =>
    InService (InEntry (IsScalar "runners") (InItem
      (Gains (fun es name => ∃ kind, Declares es kind ∧ name ∉ "type" :: fieldsOfKind kind) v)))
  | dependency =>
    InEntry (IsScalar "dependencies") (InItem (Gains (fun _ name => name ∉ ["type"]) v))

/-- A value may stand under an unknown name in a mapping: where the kind decides the fields it has
to be data, with room for its levels below the five or three collections around it. -/
def Site.Admits (v : Node) : Site → Prop
  | runner => IsData (depthLimit - 5) v
  | dependency => IsData (depthLimit - 3) v
  | _ => True

theorem tolerates_inService {R : Node → Node → Prop} {c : Prop} (h : Tolerates readService 2 c R) :
    Tolerates readFragment 0 c (InService R) :=
  .field (fun f => (h.mapping _).map fun es => Fragment.mk f.name (.ofList es) f.dependencies)
    (by decide)

theorem tolerates_readFragment (v : Node) :
    ∀ site : Site, Tolerates readFragment 0 (site.Admits v) (site.Extends v)
  | .root => tolerates_readRecord v
  | .service => tolerates_inService (tolerates_readRecord v)
  | .ingress => tolerates_inService <| .field (fun s =>
      Tolerates.option (tolerates_readRecord v) |>.map fun i =>
        ServiceFragment.mk i s.runners s.healthcheck) (by decide)
  | .runner => tolerates_inService <| .field (fun s =>
      (tolerates_readRunner v 4).list.map fun rs =>
        ServiceFragment.mk s.ingress rs s.healthcheck) (by decide)
  | .dependency => .field (fun f =>
      (tolerates_readDependency v 2).list.map fun ds =>
        Fragment.mk f.name f.services ds) (by decide)

/-- A document with an unknown entry more reads as before if the value of the entry is admitted
where it stands, and is refused if it is not. -/
theorem readFragment_of_extends {site : Site} {v n n' : Node} {f : Fragment}
    (h : site.Extends v n n') (hf : readFragment .root n = .ok f) :
    (site.Admits v → readFragment .root n' = .ok f) ∧
      (¬site.Admits v → ∃ fault, readFragment .root n' = .error fault) := by
  obtain ⟨hadmits, hrefused⟩ := tolerates_readFragment v site .root rfl n n' h f hf
  refine ⟨fun ha => ?_, hrefused⟩
  obtain ⟨_, hread, rfl⟩ := hadmits ha
  exact hread

/-- A document with a remote runner, which has some entries besides its type. -/
def remoteNode (entries : List (Node × Node)) : Node :=
  .mapping none [(.ofPlain "services", .mapping none [(.ofPlain "api", .mapping none
    [(.ofPlain "runners", .sequence none [.mapping none
      ((.ofPlain "type", .ofPlain "remote") :: entries)])])])]

theorem extends_remoteNode {k : Node} {name : String} (hk : IsText k name)
    (hname : name ∉ ["type", "environments"]) (v : Node) :
    Site.runner.Extends v (remoteNode []) (remoteNode [(k, v)]) := by
  have hkind : Declares [(.ofPlain "type", .ofPlain "remote")] "remote" :=
    ⟨_, List.mem_cons_self, ⟨none, true, rfl, rfl, rfl⟩, none, true, rfl⟩
  refine @InEntry.entry _ _ none [] [] _ _ _ ⟨none, true, rfl⟩ ?_
  refine @InEntry.entry _ _ none [] [] _ _ _ trivial ?_
  refine @InEntry.entry _ _ none [] [] _ _ _ ⟨none, true, rfl⟩ ?_
  refine @InItem.item _ none [] [] _ _ ?_
  exact @Gains.entry _ v none [(.ofPlain "type", .ofPlain "remote")] [] k name hk ⟨_, hkind, hname⟩

/-- A list of numbers is data, so a runner with one more is read as before. -/
theorem readFragment_of_extends_numbers :
    ∃ v f, Site.runner.Extends v (remoteNode []) (remoteNode [(.ofPlain "note", v)]) ∧
      readFragment .root (remoteNode []) = .ok f ∧ Site.runner.Admits v ∧
      readFragment .root (remoteNode [(.ofPlain "note", v)]) = .ok f := by
  let v : Node := .sequence none [.ofPlain "1", .ofPlain "2"]
  have hextends : Site.runner.Extends v (remoteNode []) (remoteNode [(.ofPlain "note", v)]) :=
    extends_remoteNode ⟨none, true, rfl, rfl, rfl⟩ (by decide) v
  have hdata : IsData (depthLimit - 5) v := (exists_readValue_iff ⟨[], 5⟩ v).1 ⟨_, rfl⟩
  exact ⟨v, _, hextends, rfl, hdata, (readFragment_of_extends hextends rfl).1 hdata⟩

/-- A value with a tag of its own, as in `note: !a b`, is refused where the kind decides the fields.
-/
theorem exists_extended_refused :
    ¬ ∀ (site : Site) (v n n' : Node) (f : Fragment), site.Extends v n n' →
        readFragment .root n = .ok f → readFragment .root n' = .ok f := by
  intro hall
  let v : Node := .scalar (some "!a") true "b"
  have hextends : Site.runner.Extends v (remoteNode []) (remoteNode [(.ofPlain "note", v)]) :=
    extends_remoteNode ⟨none, true, rfl, rfl, rfl⟩ (by decide) v
  have hrefused : ∃ fault, readFragment .root (remoteNode [(.ofPlain "note", v)]) = .error fault :=
    ⟨_, rfl⟩
  obtain ⟨fault, hfault⟩ := hrefused
  cases hfault.symm.trans (hall .runner v _ _ _ hextends rfl)

end Document

end LocalTopology
