import LocalTopology.Manifest.Supervisor
import LocalTopology.Proofs.Text

/-!
# Command lines, word by word

Whatever characters a word has, a shell that reads it as it is written gets to its end with the word
and nothing else (`split?_quoteWord`), so the words of a command line are the program and its
arguments. Of a word either all characters stand bare or none does (`bareChars_quoteWord`), and
those that do mean nothing to a shell.
-/

namespace LocalTopology

namespace Shell

/-- The characters that may mean more than themselves to a shell where they stand bare: they end a
word or a command, quote, expand, redirect, or begin a comment or a pattern. The equals sign, which
counts only before a command, is not among them. -/
def specials : List Char :=
  [' ', '\t', '\n', '|', '&', ';', '<', '>', '(', ')', '$', '`', '\\', '"', '\'', '*', '?', '[',
    ']', '#', '~', '%', '!', '^', '\x7b', '\x7d']

/-- Whether a character may mean more than itself to a shell where it stands bare. -/
def isSpecial (c : Char) : Bool :=
  specials.contains c

/-- The characters that stand neither between quotes nor behind a backslash, apart from the quotes
and backslashes themselves; `quoted` tells whether the text begins between quotes. -/
def bareChars (quoted : Bool) : List Char → List Char
  | [] => []
  | '\'' :: cs => bareChars (!quoted) cs
  | c :: cs =>
    if quoted then bareChars true cs
    else if c = '\\' then
      match cs with
      | [] => []
      | _ :: ds => bareChars false ds
    else c :: bareChars false cs

/-- What stands bare of a word as it is written. -/
def bareWord (w : List Char) : List Char :=
  if !w.isEmpty && w.all isSafe then w else []

theorem isSafe_eq (c : Char) :
    isSafe c = (c.isAlphanum || ['-', '_', '=', '/', ',', '.', '+'].contains c) := by
  simp [isSafe]

theorem isSpecial_of_isSafe {c : Char} (h : isSafe c = true) : isSpecial c = false := by
  have hnone : specials.any isSafe = false := by
    simp only [specials, List.any_cons, List.any_nil, isSafe_eq]
    decide
  rw [← Bool.not_eq_true, isSpecial, List.contains_iff_mem]
  intro hc
  exact Bool.false_ne_true (hnone.symm.trans (List.any_eq_true.2 ⟨c, hc, h⟩))

theorem ne_of_isSafe {c d : Char} (h : isSafe c = true) (hd : isSpecial d = true) : c ≠ d := by
  rintro rfl
  simp [isSpecial_of_isSafe h] at hd

theorem isBlank_of_isSafe {c : Char} (h : isSafe c = true) : isBlank c = false := by
  rw [← Bool.not_eq_true]
  intro hb
  simp only [isBlank, Bool.or_eq_true, beq_iff_eq] at hb
  rcases hb with (rfl | rfl) | rfl <;> exact ne_of_isSafe h rfl rfl

/-! ## One character -/

section Characters

variable {c : Char} {word : Option (List Char)} {w cs : List Char}

theorem split?_quoted (hq : c ≠ '\'') :
    split? true word (c :: cs) = split? true (some (word.getD [] ++ [c])) cs := by
  rw [split?.eq_def]
  split <;> simp_all

theorem split?_escaped :
    split? false word ('\\' :: c :: cs) = split? false (some (word.getD [] ++ [c])) cs := by
  rw [split?.eq_def]
  rfl

theorem split?_bare (hq : c ≠ '\'') (he : c ≠ '\\') (hb : isBlank c = false) :
    split? false word (c :: cs) = split? false (some (word.getD [] ++ [c])) cs := by
  rw [split?.eq_def]
  split <;> simp_all

theorem split?_blank : split? false (some w) (' ' :: cs) = (split? false none cs).map (w :: ·) := by
  rw [split?.eq_def]
  rfl

theorem bareChars_quoted (hq : c ≠ '\'') : bareChars true (c :: cs) = bareChars true cs := by
  rw [bareChars.eq_def]
  split <;> simp_all

theorem bareChars_bare (hq : c ≠ '\'') (he : c ≠ '\\') :
    bareChars false (c :: cs) = c :: bareChars false cs := by
  rw [bareChars.eq_def]
  split <;> simp_all

end Characters

/-! ## One word -/

section Words

variable {c : Char} {w cs rest : List Char}

theorem split?_quoteChar :
    split? true (some w) (quoteChar c ++ rest) = split? true (some (w ++ [c])) rest := by
  unfold quoteChar
  split_ifs with h
  · -- The quotes are closed, and opened again behind the character.
    simp only [List.cons_append, List.nil_append, split?, Bool.not_true, split?_escaped,
      Bool.not_false, Option.getD_some]
  · rw [not_or] at h
    exact split?_quoted h.1

theorem bareChars_quoteChar : bareChars true (quoteChar c ++ rest) = bareChars true rest := by
  unfold quoteChar
  split_ifs with h
  · rfl
  · rw [not_or] at h
    exact bareChars_quoted h.1

theorem split?_flatMap_quoteChar : ∀ (cs w : List Char),
    split? true (some w) (cs.flatMap quoteChar ++ rest) = split? true (some (w ++ cs)) rest
  | [], w => by simp
  | c :: cs, w => by
    rw [List.flatMap_cons, List.append_assoc, split?_quoteChar, split?_flatMap_quoteChar cs,
      List.append_assoc, List.singleton_append]

theorem bareChars_flatMap_quoteChar : ∀ cs : List Char,
    bareChars true (cs.flatMap quoteChar ++ rest) = bareChars true rest
  | [] => by simp
  | c :: cs => by
    rw [List.flatMap_cons, List.append_assoc, bareChars_quoteChar, bareChars_flatMap_quoteChar cs]

theorem split?_safe : ∀ {cs : List Char} {word : Option (List Char)}, cs ≠ [] →
    cs.all isSafe = true →
      split? false word (cs ++ rest) = split? false (some (word.getD [] ++ cs)) rest
  | [c], word, _, h => by
    rw [List.all_cons, Bool.and_eq_true] at h
    exact split?_bare (ne_of_isSafe h.1 rfl) (ne_of_isSafe h.1 rfl) (isBlank_of_isSafe h.1)
  | c :: d :: cs, word, _, h => by
    rw [List.all_cons, Bool.and_eq_true] at h
    rw [List.cons_append, split?_bare (ne_of_isSafe h.1 rfl) (ne_of_isSafe h.1 rfl)
      (isBlank_of_isSafe h.1), split?_safe (List.cons_ne_nil d cs) h.2, Option.getD_some,
      List.append_assoc, List.singleton_append]

theorem bareChars_safe : ∀ {cs : List Char}, cs.all isSafe = true →
    bareChars false (cs ++ rest) = cs ++ bareChars false rest
  | [], _ => rfl
  | c :: cs, h => by
    rw [List.all_cons, Bool.and_eq_true] at h
    rw [List.cons_append, bareChars_bare (ne_of_isSafe h.1 rfl) (ne_of_isSafe h.1 rfl),
      bareChars_safe h.2, List.cons_append]

/-- A word is read as it is written, and so is what comes behind it. -/
theorem split?_quoteWord (w : List Char) :
    split? false none (quoteWord w ++ rest) = split? false (some w) rest := by
  unfold quoteWord
  split_ifs with h
  · rw [Bool.and_eq_true, Bool.not_eq_true', List.isEmpty_eq_false_iff] at h
    exact split?_safe h.1 h.2
  · simp only [List.cons_append, List.append_assoc, split?, Bool.not_false, Option.getD_none,
      split?_flatMap_quoteChar, Bool.not_true, Option.getD_some, List.nil_append]

theorem bareChars_quoteWord (w : List Char) :
    bareChars false (quoteWord w ++ rest) = bareWord w ++ bareChars false rest := by
  unfold quoteWord bareWord
  split_ifs with h
  · rw [Bool.and_eq_true] at h
    exact bareChars_safe h.2
  · simp only [List.cons_append, List.append_assoc, bareChars, Bool.not_false,
      bareChars_flatMap_quoteChar, Bool.not_true, List.nil_append]

end Words

/-! ## The line -/

theorem split?_commandLine : ∀ ws : List (List Char),
    split? false none ([' '].intercalate (ws.map quoteWord)) = some ws
  | [] => rfl
  | [w] => by
    have h : split? false none (quoteWord w ++ []) = split? false (some w) [] :=
      split?_quoteWord w
    rw [List.append_nil] at h
    simpa [split?] using h
  | w :: x :: ws => by
    have ih := split?_commandLine (x :: ws)
    rw [List.map_cons] at ih
    simp only [List.map_cons, List.intercalate_cons_cons, List.append_assoc, List.singleton_append,
      split?_quoteWord, split?_blank, ih, Option.map_some]

theorem bareChars_commandLine : ∀ ws : List (List Char),
    bareChars false ([' '].intercalate (ws.map quoteWord)) = [' '].intercalate (ws.map bareWord)
  | [] => rfl
  | [w] => by
    have h : bareChars false (quoteWord w ++ []) = bareWord w ++ bareChars false [] :=
      bareChars_quoteWord w
    simpa [bareChars] using h
  | w :: x :: ws => by
    have ih := bareChars_commandLine (x :: ws)
    rw [List.map_cons, List.map_cons] at ih
    simp only [List.map_cons, List.intercalate_cons_cons, List.append_assoc, List.singleton_append,
      bareChars_quoteWord]
    rw [bareChars_bare (by decide) (by decide), ih]

theorem isSafe_of_mem_bareWord {c : Char} {w : List Char} (h : c ∈ bareWord w) :
    isSafe c = true := by
  unfold bareWord at h
  split_ifs at h with hw
  · rw [Bool.and_eq_true] at hw
    exact List.all_eq_true.1 hw.2 c h
  · cases h

theorem not_mem_bareWord {c : Char} (hc : isSpecial c = true) (w : List Char) :
    c ∉ bareWord w :=
  fun h => ne_of_isSafe (isSafe_of_mem_bareWord h) hc rfl

end Shell

namespace SupervisedProcess

/-- The command line is read as the program and its arguments, and nothing stands bare in it that
means more than itself but the spaces between them. -/
theorem words?_ofArguments (program : String) (arguments : List String) :
    let line := (ofArguments program arguments).command
    Shell.words? line = some (program :: arguments) ∧
      (∀ c ∈ Shell.bareChars false line.toList, c = ' ' ∨ Shell.isSpecial c = false) ∧
      (Shell.bareChars false line.toList).count ' ' = arguments.length := by
  intro line
  have hline : line.toList = [' '].intercalate
      (((program :: arguments).map String.toList).map Shell.quoteWord) := by
    rw [List.map_map]
    exact String.toList_ofList
  rw [Shell.words?, hline, Shell.split?_commandLine, Shell.bareChars_commandLine]
  refine ⟨?_, fun c hc => ?_, ?_⟩
  · simp [Function.comp_def]
  · rcases Text.mem_intercalate hc with rfl | ⟨w, hw, hc⟩
    · exact Or.inl rfl
    · obtain ⟨v, -, rfl⟩ := List.mem_map.1 hw
      exact Or.inr (Shell.isSpecial_of_isSafe (Shell.isSafe_of_mem_bareWord hc))
  · rw [Text.count_intercalate]
    · simp
    · simp only [List.mem_map]
      rintro w ⟨v, -, rfl⟩
      exact Shell.not_mem_bareWord rfl v

end SupervisedProcess

end LocalTopology
