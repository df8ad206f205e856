import LocalTopology.Document.Runner
import LocalTopology.Proofs.Maps

/-!
# Reading records that were written

A node reads as a value at a height if its reader gives the value wherever the depth leaves room for
as many levels as the height (`Reads`); what stands behind a kind is taken in first and read again
from there (`Rereads`). A record takes up its fields one after the other, in the order of the names
that it knows, and leaves out none that it requires (`Takes`). So a written record is read back once
each of its fields is, whether it stands for itself (`Takes.reads_readRecord`) or behind a kind
(`Takes.rereadsFields`, `reads_readKinded`).
-/

namespace LocalTopology

open Yaml

/-! ## Numbers -/

namespace Yaml.Plain

theorem head?_toDigits_ne_zero {n : Nat} (h : n ≠ 0) : (Nat.toDigits 10 n).head? ≠ some '0' := by
  induction n using Nat.strongRecOn with
  | ind n ih =>
    have hfirst : ∀ d < 10, d ≠ 0 → Nat.digitChar d ≠ '0' := by decide
    rw [Nat.toDigits_eq_if (by decide)]
    split_ifs with hn
    · simpa using hfirst n hn h
    · have hhead := ih (n / 10) (by omega) (by omega)
      rw [List.head?_append]
      rcases hd : (Nat.toDigits 10 (n / 10)).head? with _ | c
      · exact absurd (List.head?_eq_none_iff.1 hd) Nat.toDigits_ne_nil
      · rwa [hd] at hhead

variable {cs : List Char}

theorem hasLeadingZeros_of_digits (h : ∀ c ∈ cs, c.isDigit = true)
    (hz : cs.head? = some '0' → cs.length = 1) : hasLeadingZeros cs = false := by
  unfold hasLeadingZeros
  split
  · exact absurd (h _ List.mem_cons_self) (by decide)
  · exact absurd (h _ List.mem_cons_self) (by decide)
  · simp only [Bool.and_eq_false_iff, decide_eq_false_iff_not, beq_eq_false_iff_ne]
    by_cases hhead : cs.head? = some '0'
    · exact .inl (.inl (by rw [hz hhead]; decide))
    · exact .inl (.inr hhead)

theorem marked?_of_digits (h : ∀ c ∈ cs, c.isDigit = true) : marked? cs = none := by
  unfold marked?
  split
  · next mark digits =>
    have hmark := h mark (by simp)
    have hnone : bases.lookup mark = none := by
      rw [List.lookup_eq_none_iff]
      intro b hb
      rw [bne_iff_ne]
      rintro rfl
      simp only [bases, List.mem_cons, List.not_mem_nil, or_false] at hb
      rcases hb with rfl | rfl | rfl <;> exact absurd hmark (by decide)
    rw [hnone, Option.bind_none]
  · rfl

theorem digits?_of_digits (h : ∀ c ∈ cs, c.isDigit = true) (hne : cs ≠ []) :
    digits? 10 cs = some (Nat.ofDigitChars 10 cs 0) := by
  have hvalue : ∀ c ∈ cs, Text.hexDigitValue c = c.toNat - '0'.toNat := fun c hc => if_pos (h c hc)
  have hall : cs.all (isDigitOf 10) = true := by
    rw [List.all_eq_true]
    intro c hc
    have hd := h c hc
    have hlt : Text.hexDigitValue c < 10 := by
      rw [Char.isDigit, Bool.and_eq_true, decide_eq_true_eq, decide_eq_true_eq] at hd
      have hle : c.toNat ≤ 57 := hd.2
      have hzero : '0'.toNat = 48 := rfl
      rw [hvalue c hc]
      omega
    simp [isDigitOf, Text.isHexDigit, hd, hlt]
  rw [digits?, if_pos ⟨hne, hall⟩, Text.digitsValue, Nat.ofDigitChars]
  refine congrArg some (List.foldl_ext _ _ _ fun n c hc => ?_)
  rw [hvalue c hc, Nat.mul_comm]

theorem integer?_toDigits {n : Nat} (hn : n ≤ greatestInteger) :
    integer? (Nat.toDigits 10 n) = some n := by
  have hdigit : ∀ c ∈ Nat.toDigits 10 n, c.isDigit = true :=
    fun c => Nat.isDigit_of_mem_toDigits (by decide) (by decide)
  have hzero : (Nat.toDigits 10 n).head? = some '0' → (Nat.toDigits 10 n).length = 1 := by
    intro hhead
    obtain rfl : n = 0 := by
      by_contra h
      exact head?_toDigits_ne_zero h hhead
    rfl
  have hleast : leastInteger ≤ n := by
    have : leastInteger < 0 := by decide
    omega
  unfold integer?
  split
  next isNegative unsigned hcs =>
  -- A digit is not a sign.
  obtain ⟨rfl, rfl⟩ : isNegative = false ∧ unsigned = Nat.toDigits 10 n := by
    split at hcs
    · next heq => exact absurd (hdigit _ (heq ▸ List.mem_cons_self)) (by decide)
    · next heq => exact absurd (hdigit _ (heq ▸ List.mem_cons_self)) (by decide)
    · cases hcs
      exact ⟨rfl, rfl⟩
  rw [marked?_of_digits hdigit, hasLeadingZeros_of_digits hdigit hzero,
    digits?_of_digits hdigit Nat.toDigits_ne_nil, Nat.ofDigitChars_toDigits (by decide) (by decide)]
  simp [hleast, hn]

/-- A natural number that is written plainly stands for itself. -/
theorem atom_toString {n : Nat} (hn : n ≤ greatestInteger) : atom (toString n) = .integer n := by
  have hlist : (toString n).toList = Nat.toDigits 10 n := Nat.toList_repr
  have hempty : (toString n).isEmpty = false := by
    rw [← Bool.not_eq_true, String.isEmpty_iff]
    intro h
    exact Nat.toDigits_ne_nil (hlist.symm.trans (congrArg String.toList h))
  have hword : ∀ words : List String, words.all (·.toList.any (!·.isDigit)) = true →
      words.contains (toString n) = false := by
    intro words hwords
    rw [List.contains_eq_mem, decide_eq_false_iff_not]
    intro hmem
    obtain ⟨c, hc, hd⟩ := List.any_eq_true.1 (List.all_eq_true.1 hwords _ hmem)
    rw [hlist] at hc
    rw [Nat.isDigit_of_mem_toDigits (by decide) (by decide) hc] at hd
    cases hd
  have hnull := hword nulls (by decide)
  have hbool : bool? (toString n) = none := by
    rw [bool?, hword _ (by decide), hword _ (by decide)]
    rfl
  simp only [atom, hempty, hnull, hbool, hlist, integer?_toDigits hn]
  rfl

end Yaml.Plain

namespace Document

variable {α β σ ν : Type} {read : Reader α} {height : Nat}

/-! ## Readers -/

/-- A reader takes a node for a value wherever there is room for so many levels. -/
def Reads (read : Reader α) (height : Nat) (n : Node) (a : α) : Prop :=
  ∀ p : Place, p.depth + height ≤ depthLimit → read p n = .ok a

theorem checkDepth_eq_ok {p : Place} (h : p.depth + (height + 1) ≤ depthLimit) :
    checkDepth p = .ok () :=
  if_pos (by omega)

theorem depth_down_le {p : Place} (s : Yaml.Step) (h : p.depth + (height + 1) ≤ depthLimit) :
    (p.down s).depth + height ≤ depthLimit := by
  show p.depth + 1 + height ≤ depthLimit
  omega

theorem reads_readText (expected s : String) : Reads (readText expected) height (.ofText s) s :=
  fun _ _ => rfl

theorem isWide_natCast {n : Nat} (h : n < 18446744073709551616) : Found.isWide n = false := by
  have hpow : Int.pow 2 63 = 9223372036854775808 ∧ Int.pow 2 64 = 18446744073709551616 := by decide
  rw [Found.isWide, hpow.1, hpow.2, Bool.or_eq_false_iff, decide_eq_false_iff_not,
    decide_eq_false_iff_not]
  omega

theorem reads_readNat {limit n : Nat} (expected : String) (hlimit : limit < 18446744073709551616)
    (hn : n ≤ limit) : Reads (readNat limit expected) height (.ofPlain (toString n)) n := by
  intro p _
  have hgreatest : 18446744073709551616 ≤ Plain.greatestInteger := by decide
  have hlist : (toString n).toList = Nat.toDigits 10 n := Nat.toList_repr
  have hinteger : Plain.integer? (toString n).toList = some (n : Int) := by
    rw [hlist]
    exact Plain.integer?_toDigits (by omega)
  have hfits : ¬ ((n : Int) < 0 ∨ Found.isWide n = true) := by
    simp [isWide_natCast (Nat.lt_of_le_of_lt hn hlimit)]
  simp only [readNat, Node.ofPlain, hinteger, if_neg hfits, Int.toNat_natCast, if_pos hn]
  rfl

theorem Reads.map {n : Node} {a : α} (h : Reads read height n a)
    (f : α → β) : Reads (fun p n => do return f (← read p n)) height n (f a) := by
  intro p hp
  simp only [h p hp]
  rfl

/-- A node that is not plain stands for something. -/
theorem Reads.option {n : Node} {a : α} (h : Reads read height n a) (habsent : n ≠ .absent)
    (hplain : ∀ tag text, n ≠ .scalar tag true text) :
    Reads (readOption read) height n (some a) := by
  intro p hp
  unfold readOption
  split
  · exact absurd rfl habsent
  · exact absurd rfl (hplain _ _)
  · exact absurd rfl (hplain _ _)
  · rw [h p hp]
    rfl

theorem readItems_map {p : Place} {node : α → Node} (hp : p.depth + (height + 1) ≤ depthLimit) :
    ∀ {items : List α} (index : Nat), (∀ a ∈ items, Reads read height (node a) a) →
      readItems p read index (items.map node) = .ok items
  | [], _, _ => rfl
  | a :: items, index, h => by
    have hfirst := h a List.mem_cons_self _ (depth_down_le (.item index) hp)
    have hrest := readItems_map hp (index + 1) fun b hb => h b (List.mem_cons_of_mem _ hb)
    rw [List.map_cons, readItems, hfirst, hrest]
    rfl

theorem Reads.list {node : α → Node} {items : List α}
    (h : ∀ a ∈ items, Reads read height (node a) a) :
    Reads (readList read) (height + 1) (.sequence none (items.map node)) items := by
  intro p hp
  simp only [readList, checkDepth_eq_ok hp, bind, Except.bind, readItems_map hp 0 h]
  rfl

theorem reads_texts (expected : String) (items : List String) :
    Reads (readList (readText expected)) (height + 1) (.ofTexts items) items :=
  Reads.list fun s _ => reads_readText expected s

theorem readPairs_map {p : Place} {node : β → Node} {value : β → α}
    (hp : p.depth + (height + 1) ≤ depthLimit) :
    ∀ {es : List (String × β)}, (∀ e ∈ es, Reads read height (node e.2) (value e.2)) →
      readPairs p read (es.map fun e => (.ofText e.1, node e.2)) =
        .ok (es.map fun e => (e.1, value e.2))
  | [], _ => rfl
  | e :: es, h => by
    have hfirst := h e List.mem_cons_self _ (depth_down_le (stepOf (.ofText e.1)) hp)
    have hrest := readPairs_map hp fun d hd => h d (List.mem_cons_of_mem _ hd)
    have hkey : readText "a string" p (.ofText e.1) = .ok e.1 := rfl
    rw [List.map_cons, readPairs, hkey, hfirst, hrest]
    rfl

theorem Reads.mapping {node : β → Node} {value : β → α} {es : List (String × β)}
    (h : ∀ e ∈ es, Reads read height (node e.2) (value e.2)) :
    Reads (readMapping read) (height + 1) (.ofEntries (es.map fun e => (e.1, node e.2)))
      (es.map fun e => (e.1, value e.2)) := by
  intro p hp
  have hpairs := readPairs_map hp h
  simp only [Node.ofEntries, List.map_map, readMapping, checkDepth_eq_ok hp, bind, Except.bind,
    Function.comp_def, hpairs]
  rfl

/-- The names of a registry differ, so each of them keeps its place. -/
theorem reads_mapValues {γ : Type} {node : γ → Node} {value : γ → α}
    (h : ∀ c, Reads read height (node c) (value c)) (put : Registry α → β) (m : Registry γ) :
    Reads (fun p n => do return put (.ofList (← readMapping read p n))) (height + 1)
      (.ofEntries (m.mapValues node).entries) (put (m.mapValues value)) := by
  have hentries : Reads (readMapping read) (height + 1) (.ofEntries (m.mapValues node).entries)
      (m.mapValues value).entries := Reads.mapping fun e _ => h e.2
  have hread := hentries.map fun es => put (.ofList es)
  rwa [OrderedMap.ofList_entries] at hread

theorem reads_registry {node : α → Node} (h : ∀ a, Reads read height (node a) a)
    (put : Registry α → β) (m : Registry α) :
    Reads (fun p n => do return put (.ofList (← readMapping read p n))) (height + 1)
      (.ofEntries (m.mapValues node).entries) (put m) := by
  have hread := reads_mapValues h put m
  rwa [OrderedMap.mapValues_id] at hread

/-! ## Values that are taken in first -/

/-- A reader takes a node for a value once the node was taken in as a whole. -/
def Rereads (read : Rereader α) (height : Nat) (n : Node) (a : α) : Prop :=
  ∃ v, Reads (readValue .buffer) height n v ∧ read v = .ok a

theorem Rereads.map {read : Rereader α} {n : Node} {a : α} (h : Rereads read height n a)
    (f : α → β) : Rereads (fun v => do return f (← read v)) height n (f a) := by
  obtain ⟨v, hv, ha⟩ := h
  refine ⟨v, hv, ?_⟩
  simp only [ha]
  rfl

theorem rereads_text (s : String) : Rereads text height (.ofText s) s :=
  ⟨.text s, fun _ _ => rfl, rfl⟩

theorem rereads_port (p : Port) : Rereads port height (portNode p) p := by
  have hlt : p.toNat < 65536 := p.toNat_lt
  have hgreatest : 65536 ≤ Plain.greatestInteger := by decide
  have hatom : Plain.atom (toString p.toNat) = .integer p.toNat := Plain.atom_toString (by omega)
  have hwide : Found.isWide p.toNat = false := isWide_natCast (by omega)
  have hvalue : Scalar.value? none true (toString p.toNat) Purpose.buffer.expected =
      .ok (.integer p.toNat) := by
    simp only [Scalar.value?, Scalar.atom?, if_true, hatom, hwide]
    rfl
  refine ⟨.integer p.toNat, fun q _ => ?_, ?_⟩
  · show locate q (Scalar.value? none true (toString p.toNat) Purpose.buffer.expected) = _
    rw [hvalue]
    rfl
  · rw [port, if_pos (by omega), Int.toNat_natCast]
    exact congrArg Except.ok UInt16.ofNat_toNat

theorem Rereads.option {read : Rereader α} {n : Node} {a : α} (h : Rereads read height n a)
    (hnull : ∀ a, read .null ≠ .ok a) : Rereads (option read) height n (some a) := by
  obtain ⟨v, hv, ha⟩ := h
  refine ⟨v, hv, ?_⟩
  unfold Document.option
  split
  · exact absurd ha (hnull a)
  · rw [ha]
    rfl

theorem mapM_map_eq_ok {read : ν → Result β} {value : α → ν} {f : α → β} :
    ∀ {items : List α}, (∀ a ∈ items, read (value a) = .ok (f a)) →
      (items.map value).mapM read = .ok (items.map f)
  | [], _ => rfl
  | a :: items, h => by
    have hrest := mapM_map_eq_ok fun b hb => h b (List.mem_cons_of_mem _ hb)
    rw [List.map_cons, List.mapM_cons, h a List.mem_cons_self, hrest]
    rfl

theorem readValueItems_ofText (p : Place) : ∀ (items : List String) (index : Nat),
    readValueItems .buffer p index (items.map .ofText) = .ok (items.map .text)
  | [], _ => rfl
  | s :: items, index => by
    have hfirst : readValue .buffer (p.down (.item index)) (.ofText s) = .ok (.text s) := rfl
    rw [List.map_cons, readValueItems, hfirst, readValueItems_ofText p items]
    rfl

/-- A list of texts is taken in as texts and read again as it was. -/
theorem rereads_texts (items : List String) :
    Rereads (list text) (height + 1) (.ofTexts items) items := by
  refine ⟨.sequence (items.map .text), fun p hp => ?_, ?_⟩
  · show locate p (do checkDepth p; Value.sequence <$> readValueItems .buffer p 0 _) = _
    rw [checkDepth_eq_ok hp, readValueItems_ofText]
    rfl
  · have hall : (items.map .text).mapM text = .ok (items.map id) := mapM_map_eq_ok fun _ _ => rfl
    rwa [List.map_id] at hall

theorem readValueEntries_ofText (p : Place) : ∀ (ps : List (String × String))
    (earlier : List Value),
    readValueEntries .buffer p earlier (ps.map fun e => (.ofText e.1, .ofText e.2)) =
      .ok (ps.map fun e => (.text e.1, .text e.2))
  | [], _ => rfl
  | e :: ps, earlier => by
    have hkey : readValue .buffer ⟨p.steps, p.depth + 1⟩ (.ofText e.1) = .ok (.text e.1) := rfl
    have hvalue : readValue .buffer (p.down (stepOf (.ofText e.1))) (.ofText e.2) =
      .ok (.text e.2) := rfl
    have hnew : checkNewKey .buffer (.text e.1) earlier = .ok () := rfl
    have hrest := readValueEntries_ofText p ps (.text e.1 :: earlier)
    simp only [List.map_cons, readValueEntries, hkey, hvalue, hnew, hrest, bind, Except.bind]
    rfl

theorem reads_ofPairs (ps : List (String × String)) :
    Reads (readValue .buffer) (height + 1) (.ofPairs ps)
      (.mapping (ps.map fun e => (.text e.1, .text e.2))) := by
  intro p hp
  have hentries := readValueEntries_ofText p ps []
  simp only [Node.ofPairs, Node.ofEntries, List.map_map, Function.comp_def]
  show locate p (do checkDepth p; Value.mapping <$> readValueEntries .buffer p [] _) = _
  rw [checkDepth_eq_ok hp, hentries]
  rfl

theorem rereads_pairs (ps : List (String × String)) :
    Rereads (pairs text) (height + 1) (.ofPairs ps) ps := by
  refine ⟨_, reads_ofPairs ps, ?_⟩
  have hall : pairs text (.mapping (ps.map fun e => (Value.text e.1, Value.text e.2))) =
      .ok (ps.map id) := mapM_map_eq_ok fun _ _ => rfl
  rwa [List.map_id] at hall

theorem environmentOf_text : ∀ (es : List (String × String)) (env : Environment),
    environmentOf env (es.map fun e => (e.1, .text e.2)) = .ok (env.putAll es)
  | [], _ => rfl
  | e :: es, env => environmentOf_text es (env.put e.1 e.2)

/-- The names of an environment differ, so each of them keeps its place, spelling and value. -/
theorem collectEnvironment_entries (env : Environment) :
    collectEnvironment (env.entries.map fun e => (e.1, .text e.2)) = .ok env := by
  have hnodup : (Entries.forms id (env.entries.map fun e => (e.1, Value.text e.2))).Nodup := by
    rw [Entries.forms, List.map_map]
    exact env.nodup_keys
  rw [collectEnvironment, OrderedMap.entries_ofList hnodup, environmentOf_text]
  exact congrArg Except.ok (OrderedMap.empty_overlay env)

theorem rereads_environment (env : Environment) :
    Rereads environment (height + 1) (environmentNode env) env := by
  refine ⟨_, reads_ofPairs env.entries, ?_⟩
  have hall : pairs (fun v => do checkKeys v; return v)
      (.mapping (env.entries.map fun e => (Value.text e.1, Value.text e.2))) =
        .ok (env.entries.map fun e => (e.1, .text e.2)) := mapM_map_eq_ok fun _ _ => rfl
  rw [environment, hall]
  exact collectEnvironment_entries env

/-! ## Records -/

/-- A record takes up fields one after the other, in the order of the names that it knows, and
leaves out none that it requires. -/
inductive Takes (required : List String) (Step : σ → String → ν → σ → Prop) :
    List String → σ → List (String × ν) → σ → Prop
  | nil {s : σ} : Takes required Step [] s [] s
  | skip {name : String} {names : List String} {s s' : σ} {es : List (String × ν)}
    (optional : name ∉ required) (rest : Takes required Step names s es s') :
    Takes required Step (name :: names) s es s'
  | take {name : String} {names : List String} {s s' s'' : σ} {v : ν} {es : List (String × ν)}
    (step : Step s name v s') (rest : Takes required Step names s' es s'') :
    Takes required Step (name :: names) s ((name, v) :: es) s''

section Records

variable {required names : List String} {Step : σ → String → ν → σ → Prop} {s s' s'' : σ}
  {es : List (String × ν)}

namespace Takes

theorem append {names' : List String} {es' : List (String × ν)}
    (h : Takes required Step names s es s') (h' : Takes required Step names' s' es' s'') :
    Takes required Step (names ++ names') s (es ++ es') s'' := by
  induction h with
  | nil => exact h'
  | skip ho _ ih => exact .skip ho (ih h')
  | take hs _ ih => exact .take hs (ih h')

theorem mono {Step' : σ → String → ν → σ → Prop}
    (hstep : ∀ s name v s', Step s name v s' → Step' s name v s')
    (h : Takes required Step names s es s') : Takes required Step' names s es s' := by
  induction h with
  | nil => exact .nil
  | skip ho _ ih => exact .skip ho ih
  | take hs _ ih => exact .take (hstep _ _ _ _ hs) ih

theorem sublist (h : Takes required Step names s es s') : (es.map (·.1)).Sublist names := by
  induction h with
  | nil => exact .slnil
  | skip _ _ ih => exact .cons _ ih
  | take _ _ ih => exact .cons_cons _ ih

theorem mem_of_mem_required (h : Takes required Step names s es s') {name : String}
    (hr : name ∈ required) (hn : name ∈ names) : name ∈ es.map (·.1) := by
  induction h with
  | nil => exact hn
  | skip ho _ ih =>
    rcases List.mem_cons.1 hn with rfl | hn
    · exact absurd hr ho
    · exact ih hn
  | take _ _ ih =>
    rcases List.mem_cons.1 hn with rfl | hn
    · exact List.mem_cons_self
    · exact List.mem_cons_of_mem _ (ih hn)

/-- Fields whose names differ from each other and from those before are all read. -/
theorem readFields_eq_ok {κ : Type} {key : String → κ} {nameOf : κ → Result String}
    {step : σ → String → κ → ν → Result σ} {known : List String}
    (hkey : ∀ name, nameOf (key name) = .ok name)
    (h : Takes required (fun s name v s' => step s name (key name) v = .ok s') names s es s') :
    ∀ seen, (∀ name ∈ names, name ∈ known) → names.Nodup → (∀ name ∈ names, name ∉ seen) →
      readFields known nameOf step seen s (es.map fun e => (key e.1, e.2)) =
        .ok ((es.map (·.1)).reverse ++ seen, s') := by
  -- By induction on what is taken up; a name that was seen never comes again.
  induction h with
  | nil => exact fun _ _ _ _ => rfl
  | skip _ _ ih =>
    intro seen hknown hnodup hseen
    exact ih seen (fun n hn => hknown n (List.mem_cons_of_mem _ hn)) (List.nodup_cons.1 hnodup).2
      fun n hn => hseen n (List.mem_cons_of_mem _ hn)
  | @take name names s s₁ s₂ v es hs _ ih =>
    intro seen hknown hnodup hseen
    obtain ⟨hnew, hnodup⟩ := List.nodup_cons.1 hnodup
    have hrest := ih (name :: seen) (fun n hn => hknown n (List.mem_cons_of_mem _ hn)) hnodup
      fun n hn => by
        rw [List.mem_cons, not_or]
        exact ⟨fun he => hnew (he ▸ hn), hseen n (List.mem_cons_of_mem _ hn)⟩
    have hk : known.contains name = true := by simpa using hknown name List.mem_cons_self
    have hs' : seen.contains name = false := by simpa using hseen name List.mem_cons_self
    simp only [List.map_cons, readFields, hkey, bind, Except.bind, hk, hs', if_true, hs, hrest]
    simp

theorem requireFields_eq_ok {known : List String} (h : Takes required Step known s es s')
    (hrequired : ∀ name ∈ required, name ∈ known) (seen : List String) :
    requireFields required ((es.map (·.1)).reverse ++ seen) = .ok () := by
  unfold requireFields
  rw [List.find?_eq_none.2 fun name hr => ?_]
  have hmem := List.mem_reverse.2 (h.mem_of_mem_required hr (hrequired name hr))
  simp [List.mem_append_left seen hmem]

end Takes

/-- A written record is read back where its fields are. -/
theorem Takes.reads_readRecord {step : σ → String → Reader σ} {known : List String}
    {es : List (String × Node)} (expected : String)
    (h : Takes required (fun s name n s' => Reads (step s name) height n s') known s es s')
    (hnodup : known.Nodup) (hrequired : ∀ name ∈ required, name ∈ known) :
    Reads (readRecord expected known required s step) (height + 1) (.ofEntries es) s' := by
  intro p hp
  have hkey : ∀ name, readText "field identifier" p (.ofText name) = .ok name := fun _ => rfl
  have hfields : readFields known (readText "field identifier" p)
      (fun s name k v => step s name (p.down (stepOf k)) v) [] s
      (es.map fun e => (.ofText e.1, e.2)) = .ok ((es.map fun e => e.1).reverse ++ [], s') :=
    Takes.readFields_eq_ok hkey
      (h.mono fun _ name _ _ hs => hs _ (depth_down_le (.key name) hp)) [] (fun _ => id) hnodup
      (by simp)
  simp only [readRecord, Node.ofEntries, checkDepth_eq_ok hp, bind, Except.bind, hfields,
    h.requireFields_eq_ok hrequired]
  rfl

/-! ## Kinds -/

/-- Fields and the values that they are taken in as. -/
def TakenIn (height : Nat) : List (String × Node) → List (String × Value) → Prop :=
  List.Forall₂ fun e v => e.1 = v.1 ∧ Reads (readValue .buffer) height e.2 v.2

theorem splitEntries_of_takenIn (kinds : List String) {p : Place}
    (hp : p.depth + (height + 1) ≤ depthLimit) (kind : Option String) {es : List (String × Node)}
    {vs : List (String × Value)} (h : TakenIn height es vs) (htype : "type" ∉ es.map (·.1)) :
    splitEntries kinds p kind (es.map fun e => (.ofText e.1, e.2)) =
      .ok (kind, vs.map fun v => (.text v.1, v.2)) := by
  induction h with
  | nil => rfl
  | @cons e v es vs hev _ ih =>
    obtain ⟨⟨name, n⟩, ⟨_, v⟩⟩ := e, v
    obtain ⟨rfl, hv⟩ := hev
    rw [List.map_cons, List.mem_cons, not_or] at htype
    have hkey : readValue .buffer ⟨p.steps, p.depth + 1⟩ (.ofText name) = .ok (.text name) := rfl
    have hvalue := hv _ (depth_down_le (stepOf (.ofText name)) hp)
    simp only [List.map_cons, splitEntries, hkey, bind, Except.bind]
    split
    · next he => exact absurd (Value.text.inj he).symm htype.1
    · simp only [hvalue, ih htype.2]
      rfl

theorem reads_readKinded (expected : String) {kinds : List String} {kind : String}
    (hkind : kind ∈ kinds) {es : List (String × Node)} {vs : List (String × Value)}
    (h : TakenIn height es vs) (htype : "type" ∉ es.map (·.1)) :
    Reads (readKinded expected kinds) (height + 1)
      (.ofEntries (("type", .ofText kind) :: es))
      ⟨kind, .mapping (vs.map fun v => (.text v.1, v.2))⟩ := by
  intro p hp
  have hname : readKind kinds (p.down (.key "type")) (.ofText kind) = .ok kind := by
    have hk : kinds.contains kind = true := by simpa using hkind
    show locate _ (if kinds.contains kind then .ok kind else _) = _
    rw [hk]
    rfl
  have hsplit : splitEntries kinds p none
      ((.ofText "type", .ofText kind) :: es.map fun e => (.ofText e.1, e.2)) =
        .ok (some kind, vs.map fun v => (.text v.1, v.2)) := by
    have hrest := splitEntries_of_takenIn kinds hp (some kind) h htype
    show (do let name ← readKind kinds (p.down (.key "type")) (.ofText kind)
             splitEntries kinds p (some name) _) = _
    rw [hname]
    exact hrest
  simp only [readKinded, Node.ofEntries, Node.tag?, ownTag?, checkDepth_eq_ok hp, bind,
    Except.bind, hsplit, List.map_cons]
  rfl

theorem Takes.exists_takenIn {step : σ → String → Rereader σ} {es : List (String × Node)}
    (h : Takes required (fun s name n s' => Rereads (step s name) height n s') names s es s') :
    ∃ vs, TakenIn height es vs ∧
      Takes required (fun s name v s' => step s name v = .ok s') names s vs s' := by
  induction h with
  | nil => exact ⟨[], .nil, .nil⟩
  | skip ho _ ih =>
    obtain ⟨vs, hvs, ht⟩ := ih
    exact ⟨vs, hvs, .skip ho ht⟩
  | @take name _ _ _ _ _ _ hs _ ih =>
    obtain ⟨vs, hvs, ht⟩ := ih
    obtain ⟨v, hv, hstep⟩ := hs
    exact ⟨(name, v) :: vs, .cons ⟨rfl, hv⟩ hvs, .take hstep ht⟩

/-- A record that was taken in is read back where its fields are. -/
theorem Takes.record_eq_ok {step : σ → String → Rereader σ} {fields : List String}
    {vs : List (String × Value)} (expected : String)
    (h : Takes required (fun s name v s' => step s name v = .ok s') fields s vs s')
    (hnodup : fields.Nodup) (hrequired : ∀ name ∈ required, name ∈ fields) :
    record expected fields required s step (.mapping (vs.map fun v => (.text v.1, v.2))) =
      .ok s' := by
  have hkey : ∀ name, fieldName fields (.text name) = .ok name := fun _ => rfl
  have hfields : readFields fields (fieldName fields) (fun s name _ v => step s name v) [] s
      (vs.map fun v => (.text v.1, v.2)) = .ok ((vs.map fun v => v.1).reverse ++ [], s') :=
    Takes.readFields_eq_ok hkey h [] (fun _ => id) hnodup (by simp)
  simp only [record, bind, Except.bind, hfields, h.requireFields_eq_ok hrequired]
  rfl

end Records

/-- The fields behind a kind are taken in and read again as a value. -/
def RereadsFields (read : Rereader α) (height : Nat) (es : List (String × Node)) (a : α) : Prop :=
  "type" ∉ es.map (·.1) ∧ ∃ vs, TakenIn height es vs ∧
    read (.mapping (vs.map fun v => (.text v.1, v.2))) = .ok a

/-- Written fields behind a kind are read back where each of them is. -/
theorem Takes.rereadsFields {required : List String} {step : σ → String → Rereader σ} {s s' : σ}
    {fields : List String} {es : List (String × Node)} (expected : String)
    (h : Takes required (fun s name n s' => Rereads (step s name) height n s') fields s es s')
    (hnodup : ("type" :: fields).Nodup) (hrequired : ∀ name ∈ required, name ∈ fields) :
    RereadsFields (record expected fields required s step) height es s' := by
  obtain ⟨htype, hnodup⟩ := List.nodup_cons.1 hnodup
  obtain ⟨vs, hvs, ht⟩ := h.exists_takenIn
  exact ⟨fun hm => htype (h.sublist.mem hm), vs, hvs, ht.record_eq_ok expected hnodup hrequired⟩

/-! ## Fields that may be left out -/

section Fields

variable {required : List String} {Step : σ → String → Node → σ → Prop} {s s' : σ} {name : String}

theorem takes_field {n : Node} (h : Step s name n s') :
    Takes required Step [name] s [(name, n)] s' :=
  .take h .nil

theorem takes_optional {node : α → Node} (put : Option α → σ) (hname : name ∉ required)
    (h : ∀ a, Step (put none) name (node a) (put (some a))) :
    ∀ a, Takes required Step [name] (put none) (optional name node a) (put a)
  | none => .skip hname .nil
  | some a => takes_field (h a)

theorem takes_unlessEmpty {n : Node} {isEmpty : Bool} (hname : name ∉ required)
    (hempty : isEmpty = true → s' = s) (h : Step s name n s') :
    Takes required Step [name] s (unlessEmpty name isEmpty n) s' := by
  unfold unlessEmpty
  split_ifs with he
  · rw [hempty he]
    exact .skip hname .nil
  · exact takes_field h

theorem takes_texts (put : List String → σ) (hname : name ∉ required)
    (h : ∀ items, Step (put []) name (.ofTexts items) (put items)) (items : List String) :
    Takes required Step [name] (put []) (textsField name items) (put items) :=
  takes_unlessEmpty hname (fun he => by rw [List.isEmpty_iff.1 he]) (h items)

theorem takes_environment (put : Environment → σ) (hname : "environment" ∉ required)
    (h : ∀ env, Step (put ∅) "environment" (environmentNode env) (put env)) (env : Environment) :
    Takes required Step ["environment"] (put ∅) (environmentField env) (put env) :=
  takes_unlessEmpty hname (fun he => by rw [OrderedMap.eq_empty_of_isEmpty he]) (h env)

end Fields

end Document

end LocalTopology
