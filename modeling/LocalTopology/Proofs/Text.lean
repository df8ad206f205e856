import LocalTopology.Text.Ascii
import LocalTopology.Text.Blank
import LocalTopology.Text.Cut
import Mathlib.Data.List.DropRight
import Mathlib.Data.List.Infix

/-!
# Cutting text, by what the pieces are

A cut is told by how the text is put together from its pieces: the text on both sides of the first
or the last occurrence of a character (`cutFirst?_eq_some_iff`, `cutLast?_eq_some_iff`), or the
pieces between all of them, which hold none (`not_mem_of_mem_splitOn`). Text without the slashes at
its end ends in no slash, and text without the white space around it is the rest of it
(`trim_append`, `exists_trim`).
-/

namespace LocalTopology.Text

/-- A known end of which nothing occurs in front of some text is an end of that text. -/
theorem isSuffixOf?_append_of_not_mem {known before : List Char} (h : ∀ c ∈ known, c ∉ before)
    (cs : List Char) :
    known.isSuffixOf? (before ++ cs) = (known.isSuffixOf? cs).map (before ++ ·) := by
  ext rest
  simp only [Option.map_eq_some_iff, List.isSuffixOf?_eq_some_iff_append_eq]
  constructor
  · intro he
    rcases List.append_eq_append_iff.1 he.symm with ⟨more, rfl, hcs⟩ | ⟨more, rfl, hknown⟩
    · exact ⟨more, hcs.symm, rfl⟩
    · rcases more with _ | ⟨c, more⟩
      · exact ⟨[], by simpa using hknown, by simp⟩
      · exact absurd (by simp) (h c (by simp [hknown]))
  · rintro ⟨rest, rfl, rfl⟩
    exact List.append_assoc _ _ _

theorem startsWith_iff {known s : String} :
    startsWith known s = true ↔ known.toList <+: s.toList :=
  List.isPrefixOf_iff_prefix

theorem cutLast?_eq_none_iff {sep : Char} : ∀ {cs : List Char}, cutLast? sep cs = none ↔ sep ∉ cs
  | [] => by simp [cutLast?]
  | c :: cs => by
    have ih := @cutLast?_eq_none_iff sep cs
    rcases h : cutLast? sep cs with _ | p
    · by_cases hc : c = sep
      · simp [cutLast?, h, hc]
      · simp [cutLast?, h, hc, Ne.symm hc, ih.1 h]
    · have hm : sep ∈ cs := by
        by_contra hn
        rw [ih.2 hn] at h
        simp at h
      simp [cutLast?, h, hm]

theorem cutLast?_eq_some_iff {sep : Char} : ∀ {cs before after : List Char},
    cutLast? sep cs = some (before, after) ↔ cs = before ++ sep :: after ∧ sep ∉ after
  | [], before, after => by simp [cutLast?]
  | c :: cs, before, after => by
    rcases h : cutLast? sep cs with _ | ⟨b, a⟩
    · have hn := cutLast?_eq_none_iff.1 h
      by_cases hc : c = sep
      · subst hc
        rcases before with _ | ⟨x, xs⟩
        · simp only [cutLast?, h, if_true, Option.some.injEq, Prod.mk.injEq, true_and,
            List.nil_append, List.cons.injEq]
          exact ⟨fun e => ⟨e, e ▸ hn⟩, fun e => e.1⟩
        · simp only [cutLast?, h, if_true, List.cons_append, List.cons.injEq]
          refine ⟨fun e => by simp at e, fun ⟨⟨_, e⟩, _⟩ => absurd ?_ hn⟩
          simp [e]
      · simp only [cutLast?, h, hc, if_false, reduceCtorEq, false_iff]
        rintro ⟨e, -⟩
        rcases before with _ | ⟨x, xs⟩
        · simp only [List.nil_append, List.cons.injEq] at e
          exact hc e.1
        · simp only [List.cons_append, List.cons.injEq] at e
          exact hn (by simp [e.2])
    · obtain ⟨rfl, ha⟩ := cutLast?_eq_some_iff.1 h
      simp only [cutLast?, h, Option.some.injEq, Prod.mk.injEq]
      constructor
      · rintro ⟨rfl, rfl⟩
        exact ⟨rfl, ha⟩
      · rintro ⟨e, hn⟩
        rcases before with _ | ⟨x, xs⟩
        · simp only [List.nil_append, List.cons.injEq] at e
          exact absurd (by simp [← e.2]) hn
        · simp only [List.cons_append, List.cons.injEq] at e
          have hcut : cutLast? sep (b ++ sep :: a) = some (xs, after) :=
            cutLast?_eq_some_iff.2 ⟨e.2, hn⟩
          rw [h, Option.some.injEq, Prod.mk.injEq] at hcut
          simp [e.1, hcut.1, hcut.2]

theorem cutFirst?_eq_some_iff {sep : Char} : ∀ {cs before after : List Char},
    cutFirst? sep cs = some (before, after) ↔ cs = before ++ sep :: after ∧ sep ∉ before
  | [], before, after => by simp [cutFirst?]
  | c :: cs, before, after => by
    by_cases hc : c = sep
    · subst hc
      rcases before with _ | ⟨x, xs⟩
      · simp [cutFirst?]
      · simp only [cutFirst?, if_true, Option.some.injEq, Prod.mk.injEq, List.cons_append,
          List.cons.injEq, List.mem_cons, not_or]
        refine iff_of_false (by simp) ?_
        rintro ⟨⟨rfl, -⟩, hne, -⟩
        exact hne rfl
    · simp only [cutFirst?, hc, if_false, Option.map_eq_some_iff, Prod.exists, Prod.mk.injEq,
        @cutFirst?_eq_some_iff sep cs]
      rcases before with _ | ⟨x, xs⟩
      · simp [hc]
      · simp only [List.cons.injEq, List.cons_append, List.mem_cons, not_or]
        constructor
        · rintro ⟨b, a, ⟨rfl, hb⟩, ⟨rfl, rfl⟩, rfl⟩
          exact ⟨⟨rfl, rfl⟩, Ne.symm hc, hb⟩
        · rintro ⟨⟨rfl, rfl⟩, -, hb⟩
          exact ⟨xs, after, ⟨rfl, hb⟩, ⟨rfl, rfl⟩, rfl⟩

theorem cutFirst?_map {sep : Char} {f : Char → Char} (hf : ∀ c, f c = sep ↔ c = sep) :
    ∀ cs : List Char, cutFirst? sep (cs.map f) =
      (cutFirst? sep cs).map fun (before, after) => (before.map f, after.map f)
  | [] => rfl
  | c :: cs => by
    have ih := cutFirst?_map hf cs
    by_cases hc : c = sep
    · simp [cutFirst?, hc, (hf sep).2 rfl]
    · have hfc : f c ≠ sep := fun h => hc ((hf c).1 h)
      simp only [List.map_cons, cutFirst?, hfc, hc, if_false, ih, Option.map_map]
      rfl

theorem not_mem_of_mem_splitOn {sep : Char} : ∀ {cs piece : List Char}, piece ∈ cs.splitOn sep →
    sep ∉ piece
  | [], piece, h => by
    obtain rfl := List.mem_singleton.1 h
    simp
  | c :: cs, piece, h => by
    have ih := @not_mem_of_mem_splitOn sep cs
    rw [List.splitOn_cons_eq_if_modifyHead] at h
    split_ifs at h with hc
    · rcases List.mem_cons.1 h with rfl | h
      · simp
      · exact ih h
    · obtain ⟨first, pieces, hs⟩ := List.exists_cons_of_ne_nil (List.splitOn_ne_nil sep cs)
      rw [hs] at ih
      rw [hs, List.modifyHead_cons] at h
      rcases List.mem_cons.1 h with rfl | h
      · simp only [List.mem_cons, not_or]
        exact ⟨fun he => hc (beq_iff_eq.2 he.symm), ih List.mem_cons_self⟩
      · exact ih (List.mem_cons_of_mem _ h)

theorem splitOn_cons_self (sep : Char) (cs : List Char) :
    (sep :: cs).splitOn sep = [] :: cs.splitOn sep :=
  List.splitOn_append_cons_self_of_not_mem List.not_mem_nil cs

theorem head?_intercalate_ne {sep : Char} {pieces : List (List Char)}
    (hne : pieces.head? ≠ some []) (h : ∀ piece ∈ pieces, sep ∉ piece) :
    ([sep].intercalate pieces).head? ≠ some sep := by
  rcases pieces with _ | ⟨_ | ⟨c, cs⟩, pieces⟩
  · simp
  · exact absurd rfl hne
  · have hc : c ≠ sep := fun he => h _ List.mem_cons_self (he ▸ List.mem_cons_self)
    rw [List.intercalate_cons_cons_left]
    simpa using hc

theorem mem_intercalate {sep c : Char} : ∀ {pieces : List (List Char)},
    c ∈ [sep].intercalate pieces → c = sep ∨ ∃ piece ∈ pieces, c ∈ piece
  | [piece], h => Or.inr ⟨piece, List.mem_singleton_self piece, by simpa using h⟩
  | piece :: next :: pieces, h => by
    simp only [List.intercalate_cons_cons, List.mem_append, List.mem_singleton] at h
    rcases h with (h | rfl) | h
    · exact Or.inr ⟨piece, List.mem_cons_self, h⟩
    · exact Or.inl rfl
    · rcases mem_intercalate h with rfl | ⟨p, hp, hc⟩
      · exact Or.inl rfl
      · exact Or.inr ⟨p, List.mem_cons_of_mem _ hp, hc⟩

theorem count_intercalate {sep : Char} : ∀ {pieces : List (List Char)},
    (∀ piece ∈ pieces, sep ∉ piece) → ([sep].intercalate pieces).count sep = pieces.length - 1
  | [], _ => rfl
  | [piece], h => by
    rw [List.intercalate_singleton]
    exact List.count_eq_zero.2 (h piece (List.mem_singleton_self piece))
  | piece :: next :: pieces, h => by
    have ih : ([sep].intercalate (next :: pieces)).count sep = (next :: pieces).length - 1 :=
      count_intercalate fun p hp => h p (List.mem_cons_of_mem _ hp)
    rw [List.intercalate_cons_cons, List.count_append, List.count_append, ih,
      List.count_eq_zero.2 (h piece List.mem_cons_self), List.count_singleton_self]
    simp [Nat.add_comm]

theorem intercalate_append {sep : Char} {rest : List (List Char)} (hrest : rest ≠ []) :
    ∀ {pieces : List (List Char)}, pieces ≠ [] →
      [sep].intercalate (pieces ++ rest) =
        [sep].intercalate pieces ++ [sep] ++ [sep].intercalate rest
  | [piece], _ => by simp [List.intercalate_cons_of_ne_nil hrest]
  | piece :: next :: pieces, _ => by
    have ih : [sep].intercalate (next :: (pieces ++ rest)) =
        [sep].intercalate (next :: pieces) ++ [sep] ++ [sep].intercalate rest :=
      intercalate_append hrest (List.cons_ne_nil next pieces)
    rw [List.cons_append, List.cons_append, List.intercalate_cons_cons, ih,
      List.intercalate_cons_cons]
    simp only [List.append_assoc]

theorem intercalate_eq_nil_iff {sep : Char} {pieces : List (List Char)} :
    [sep].intercalate pieces = [] ↔ pieces = [] ∨ pieces = [[]] := by
  rcases pieces with _ | ⟨piece, _ | ⟨next, pieces⟩⟩ <;> simp

theorem toList_trimEndSlashes (s : String) :
    (trimEndSlashes s).toList = s.toList.rdropWhile (· = '/') :=
  String.toList_ofList

theorem trimEndSlashes_isPrefix (s : String) : (trimEndSlashes s).toList <+: s.toList := by
  rw [toList_trimEndSlashes]
  exact List.rdropWhile_prefix _ _

theorem trimEndSlashes_eq_self {s : String} (h : s.toList.getLast? ≠ some '/') :
    trimEndSlashes s = s := by
  rw [← String.toList_inj, toList_trimEndSlashes, List.rdropWhile_eq_self_iff]
  intro hne hlast
  exact h (by rw [List.getLast?_eq_some_getLast hne, of_decide_eq_true hlast])

theorem getLast?_trimEndSlashes (s : String) : (trimEndSlashes s).toList.getLast? ≠ some '/' := by
  rw [toList_trimEndSlashes]
  intro h
  have hne : s.toList.rdropWhile (· = '/') ≠ [] := by
    intro he
    simp [he] at h
  have hlast := List.rdropWhile_last_not (· = '/') s.toList hne
  rw [List.getLast?_eq_some_getLast hne, Option.some.injEq] at h
  simp [h] at hlast

theorem trimEnd_eq_rdropWhile (cs : List Char) : trimEnd cs = cs.rdropWhile isBlank := rfl

theorem trimEnd_append {cs after : List Char} (hcs : ∀ c ∈ cs, isBlank c = false)
    (h : ∀ c ∈ after, isBlank c = true) : trimEnd (cs ++ after) = cs := by
  rw [trimEnd, List.reverse_append,
    List.dropWhile_append_of_pos fun c hc => h c (List.mem_reverse.1 hc)]
  have hkeep : cs.reverse.dropWhile isBlank = cs.reverse :=
    List.dropWhile_eq_self_iff.2 fun hl => by
      rw [hcs _ (List.mem_reverse.1 (List.getElem_mem hl))]
      exact Bool.false_ne_true
  rw [hkeep, List.reverse_reverse]

theorem trim_append {before cs after : List Char} (h : ∀ c ∈ before ++ after, isBlank c = true)
    (hcs : ∀ c ∈ cs, isBlank c = false) : trim (before ++ cs ++ after) = cs := by
  have hafter : ∀ c ∈ after, isBlank c = true := fun c hc => h c (List.mem_append_right _ hc)
  rw [trim, List.append_assoc,
    List.dropWhile_append_of_pos fun c hc => h c (List.mem_append_left _ hc)]
  rcases cs with _ | ⟨c, cs⟩
  · exact List.rdropWhile_eq_nil_iff.2 fun c hc => hafter c ((List.dropWhile_sublist _).subset hc)
  · rw [List.cons_append, List.dropWhile_cons_of_neg (by simp [hcs c]), ← List.cons_append]
    exact trimEnd_append hcs hafter

theorem trim_eq_self {cs : List Char} (h : ∀ c ∈ cs, isBlank c = false) : trim cs = cs := by
  simpa using @trim_append [] cs [] (by simp) h

theorem exists_trim (cs : List Char) :
    ∃ before after, cs = before ++ trim cs ++ after ∧ ∀ c ∈ before ++ after, isBlank c = true := by
  refine ⟨cs.takeWhile isBlank, (cs.dropWhile isBlank).rtakeWhile isBlank, ?_, fun c hc => ?_⟩
  · rw [trim, trimEnd_eq_rdropWhile, List.append_assoc,
      List.rdropWhile_append_rtakeWhile, List.takeWhile_append_dropWhile]
  · rcases List.mem_append.1 hc with hc | hc
    · exact List.mem_takeWhile_imp hc
    · exact List.mem_rtakeWhile_imp hc

theorem isBlank_eq_false_of_isDigit {c : Char} (h : c.isDigit = true) : isBlank c = false := by
  rw [Char.isDigit, Bool.and_eq_true, decide_eq_true_eq, decide_eq_true_eq] at h
  have hle : c.toNat ≤ 57 := h.2
  have hge : 48 ≤ c.toNat := h.1
  simp only [isBlank, Bool.or_eq_false_iff, Bool.and_eq_false_iff, decide_eq_false_iff_not,
    beq_eq_false_iff_ne]
  omega

theorem readNat?_eq_some_iff {cs : List Char} {n : Nat} : readNat? cs = some n ↔
    cs ≠ [] ∧ (∀ c ∈ cs, c.isDigit = true) ∧ n = Nat.ofDigitChars 10 cs 0 := by
  have hvalue : digitsValue 10 digitValue 0 cs = Nat.ofDigitChars 10 cs 0 :=
    List.foldl_ext _ _ _ fun n c _ => by rw [digitValue, Nat.mul_comm]
  unfold readNat?
  rw [Option.ite_none_right_eq_some, Option.some.injEq, hvalue, List.all_eq_true, and_assoc,
    eq_comm]

theorem toLower_eq_iff {c d : Char} (hd : d.val < 65) : c.toLower = d ↔ c = d := by
  by_cases h : 65 ≤ c.val ∧ c.val ≤ 90
  · have hv : c.toLower.val = c.val + 32 := congrArg Char.val (dif_pos h)
    rw [UInt32.lt_iff_toNat_lt] at hd
    rw [UInt32.le_iff_toNat_le, UInt32.le_iff_toNat_le] at h
    have hn : (c.val + 32).toNat = c.val.toNat + 32 := by
      rw [UInt32.toNat_add]
      simp at h ⊢
      omega
    constructor
    · rintro rfl
      rw [hv, hn] at hd
      simp at h hd
      omega
    · rintro rfl
      simp at h hd
      omega
  · rw [toLower_eq_self h]

end LocalTopology.Text
