import LocalTopology.Duration
import LocalTopology.Proofs.Text

/-!
# Durations in words

A duration is spelled as a number and a suffix, with white space around them (`Spells`). Signs and
digits are in no suffix, so looking for one behind a number takes nothing of the number
(`isSuffixOf?_append_of_not_mem`), and a text is spelled in at most one way. Where its number fits,
it reads as exactly that length, and any other text is refused (`parse?_eq_some_iff_spells`).
-/

namespace LocalTopology

namespace Duration

open Text

/-- What may stand behind the number of a duration. -/
inductive Suffix
  | milliseconds
  | seconds
  | minutes
  | absent
  deriving DecidableEq

namespace Suffix

/-- The suffix as it is written. -/
def text : Suffix → List Char
  | milliseconds => ['m', 's']
  | seconds => ['s']
  | minutes => ['m']
  | absent => []

/-- The nanoseconds that are counted with the suffix. -/
def nanoseconds : Suffix → Nat
  | milliseconds => 1000000
  | seconds => nanosPerSecond
  | minutes => 60 * nanosPerSecond
  | absent => nanosPerSecond

/-- A number fits into 64 bits, and so do its seconds if it counts minutes. -/
def Fits (u : Suffix) (n : Nat) : Prop :=
  n < Nat.pow 2 64 ∧ (u = minutes → 60 * n < Nat.pow 2 64)

/-- The duration of so many, unless their seconds are too many. -/
def measure? : Suffix → Nat → Option Duration
  | milliseconds, n => some (ofMillis n)
  | seconds, n => some (ofSeconds n)
  | minutes, n => if n * 60 < Nat.pow 2 64 then some (ofSeconds (n * 60)) else none
  | absent, n => some (ofSeconds n)

end Suffix

/-- A text spells a number: digits, behind a plus sign or not. -/
inductive Counts : List Char → Nat → Prop
  | bare {digits : List Char} (nonempty : digits ≠ []) (isDigit : ∀ c ∈ digits, c.isDigit = true) :
    Counts digits (Nat.ofDigitChars 10 digits 0)
  | signed {digits : List Char} (nonempty : digits ≠ [])
    (isDigit : ∀ c ∈ digits, c.isDigit = true) :
    Counts ('+' :: digits) (Nat.ofDigitChars 10 digits 0)

/-- A text spells a number with a suffix between white space. -/
def Spells (s : String) (n : Nat) (u : Suffix) : Prop :=
  ∃ before number after, s.toList = before ++ (number ++ u.text) ++ after ∧
    (∀ c ∈ before ++ after, isBlank c = true) ∧ Counts number n

/-! ## Numbers -/

namespace Counts

variable {cs : List Char} {n m : Nat}

theorem isDigit_of_mem (h : Counts cs n) {c : Char} (hc : c ∈ cs) : c = '+' ∨ c.isDigit = true := by
  cases h with
  | bare _ hd => exact .inr (hd c hc)
  | signed _ hd =>
    rcases List.mem_cons.1 hc with rfl | hc
    · exact .inl rfl
    · exact .inr (hd c hc)

theorem not_mem (h : Counts cs n) {c : Char} (hplus : c ≠ '+') (hdigit : c.isDigit = false) :
    c ∉ cs := by
  intro hc
  rcases h.isDigit_of_mem hc with hc | hc
  · exact hplus hc
  · exact Bool.false_ne_true (hdigit.symm.trans hc)

theorem eq (h : Counts cs n) (h' : Counts cs m) : n = m := by
  cases h with
  | bare _ hd =>
    cases h' with
    | bare _ _ => rfl
    | signed _ _ => exact absurd (hd '+' List.mem_cons_self) (by decide)
  | signed _ _ =>
    cases h' with
    | bare _ hd => exact absurd (hd '+' List.mem_cons_self) (by decide)
    | signed _ _ => rfl

end Counts

theorem readCount?_eq_some_iff {cs : List Char} {n : Nat} :
    readCount? cs = some n ↔ Counts cs n ∧ n < Nat.pow 2 64 := by
  unfold readCount?
  simp only [Option.filter_eq_some_iff, readNat?_eq_some_iff, decide_eq_true_eq]
  refine and_congr_left fun _ => ⟨?_, fun h => ?_⟩
  · split
    · rintro ⟨hne, hd, rfl⟩
      exact .signed hne hd
    · rintro ⟨hne, hd, rfl⟩
      exact .bare hne hd
  · cases h with
    | signed hne hd => exact ⟨hne, hd, rfl⟩
    | bare hne hd =>
      split
      · exact absurd (hd '+' List.mem_cons_self) (by decide)
      · exact ⟨hne, hd, rfl⟩

/-! ## Suffixes -/

namespace Suffix

theorem text_injective : Function.Injective text := by
  intro u v h
  cases u <;> cases v <;> simp [text] at h ⊢

theorem measure?_eq_some_iff {u : Suffix} {n : Nat} (hn : n < Nat.pow 2 64) {d : Duration} :
    u.measure? n = some d ↔ u.Fits n ∧ d.nanoseconds = n * u.nanoseconds := by
  have hexact : ∀ {k : Nat}, k ≤ greatest → (some (ofNanos k) = some d ↔ d.nanoseconds = k) := by
    intro k hk
    obtain ⟨m, hm⟩ := d
    simp [ofNanos, Nat.min_eq_left hk, eq_comm]
  have hpow : Nat.pow 2 64 = 18446744073709551616 := rfl
  have hgreatest : greatest = 18446744073709551616 * 1000000000 - 1 := rfl
  cases u with
  | milliseconds =>
    rw [measure?, ofMillis, hexact (by omega), nanoseconds]
    exact (and_iff_right ⟨hn, nofun⟩).symm
  | seconds | absent =>
    rw [measure?, ofSeconds, hexact (by rw [nanosPerSecond]; omega), nanoseconds, nanosPerSecond]
    exact (and_iff_right ⟨hn, nofun⟩).symm
  | minutes =>
    rw [measure?, Option.ite_none_right_eq_some, ofSeconds]
    have hfits : Fits minutes n ↔ n * 60 < Nat.pow 2 64 := by
      rw [Fits, and_iff_right hn, Nat.mul_comm]
      exact forall_prop_of_true rfl
    rw [hfits, nanoseconds, ← Nat.mul_assoc]
    exact and_congr_right fun h => hexact (by rw [nanosPerSecond]; omega)

end Suffix

/-- Whatever a text is, it reads as the number in front of a suffix. -/
theorem exists_suffix (s : String) : ∃ number u, trim s.toList = number ++ Suffix.text u ∧
    parse? s = (readCount? number).bind u.measure? := by
  unfold parse?
  simp only [Option.map_eq_bind]
  have hcut {known number : List Char} (h : known.isSuffixOf? (trim s.toList) = some number) :
      trim s.toList = number ++ known :=
    (List.append_eq_of_isSuffixOf?_eq_some h).symm
  split
  next number h => exact ⟨number, .milliseconds, hcut h, rfl⟩
  split
  next number h => exact ⟨number, .seconds, hcut h, rfl⟩
  split
  next number h => exact ⟨number, .minutes, hcut h, rfl⟩
  exact ⟨_, .absent, (List.append_nil _).symm, rfl⟩

/-- The suffixes are told apart where no letter of theirs occurs in the number. -/
theorem parse?_of_trim {s : String} {number : List Char} {u : Suffix}
    (h : trim s.toList = number ++ u.text) (hm : 'm' ∉ number) (hs : 's' ∉ number) :
    parse? s = (readCount? number).bind u.measure? := by
  have hdrop : ∀ known : List Char, (∀ c ∈ known, c = 'm' ∨ c = 's') →
      known.isSuffixOf? (number ++ u.text) = (known.isSuffixOf? u.text).map (number ++ ·) := by
    refine fun known hknown => isSuffixOf?_append_of_not_mem (fun c hc => ?_) _
    rcases hknown c hc with rfl | rfl
    · exact hm
    · exact hs
  simp only [parse?, h, hdrop ['m', 's'] (by simp), hdrop ['s'] (by simp), hdrop ['m'] (by simp),
    Option.map_eq_bind]
  cases u <;> simp [Suffix.text, List.isSuffixOf?, List.isPrefixOf?] <;> rfl

/-! ## Spellings -/

theorem spells_iff {s : String} {n : Nat} {u : Suffix} :
    Spells s n u ↔ ∃ number, trim s.toList = number ++ u.text ∧ Counts number n := by
  constructor
  · rintro ⟨before, number, after, hs, hblank, hn⟩
    refine ⟨number, ?_, hn⟩
    have htext : u.text.all (!isBlank ·) = true := by cases u <;> rfl
    rw [hs, trim_append hblank]
    intro c hc
    rcases List.mem_append.1 hc with hc | hc
    · rcases hn.isDigit_of_mem hc with rfl | hc
      · rfl
      · exact isBlank_eq_false_of_isDigit hc
    · simpa using List.all_eq_true.1 htext c hc
  · rintro ⟨number, hs, hn⟩
    obtain ⟨before, after, htrim, hblank⟩ := exists_trim s.toList
    exact ⟨before, number, after, by rw [← hs]; exact htrim, hblank, hn⟩

/-- The number ends where neither a sign nor a digit stands, and what is left is the suffix. -/
theorem Counts.append_inj {cs ds : List Char} {n m : Nat} {u v : Suffix} (hcs : Counts cs n)
    (hds : Counts ds m) (h : cs ++ u.text = ds ++ v.text) : n = m ∧ u = v := by
  have hnumber : ∀ {cs : List Char} {n : Nat} {u : Suffix}, Counts cs n →
      (cs ++ u.text).takeWhile (fun c => c == '+' || c.isDigit) = cs := by
    intro cs n u hcs
    have hend : u.text.takeWhile (fun c => c == '+' || c.isDigit) = [] := by cases u <;> rfl
    rw [List.takeWhile_append_of_pos fun c hc => by simpa using hcs.isDigit_of_mem hc, hend,
      List.append_nil]
  obtain rfl : cs = ds := by rw [← hnumber hcs, h, hnumber hds]
  exact ⟨hcs.eq hds, Suffix.text_injective (List.append_cancel_left h)⟩

/-- A text reads as a duration exactly if it spells a number that fits, and then as that many
units; no text spells two. -/
theorem parse?_eq_some_iff_spells (s : String) :
    (∀ d, parse? s = some d ↔
      ∃ n u, Spells s n u ∧ u.Fits n ∧ d.nanoseconds = n * u.nanoseconds) ∧
    ∀ n u m v, Spells s n u → Spells s m v → n = m ∧ u = v := by
  simp only [spells_iff]
  refine ⟨fun d => ⟨fun h => ?_, ?_⟩, ?_⟩
  · obtain ⟨number, u, hs, hread⟩ := exists_suffix s
    rw [hread, Option.bind_eq_some_iff] at h
    obtain ⟨n, hn, hd⟩ := h
    obtain ⟨hcount, hlt⟩ := readCount?_eq_some_iff.1 hn
    exact ⟨n, u, ⟨number, hs, hcount⟩, (Suffix.measure?_eq_some_iff hlt).1 hd⟩
  · rintro ⟨n, u, ⟨number, hs, hcount⟩, hfits, hd⟩
    rw [parse?_of_trim hs (hcount.not_mem (by decide) rfl) (hcount.not_mem (by decide) rfl),
      readCount?_eq_some_iff.2 ⟨hcount, hfits.1⟩]
    exact (Suffix.measure?_eq_some_iff hfits.1).2 ⟨hfits, hd⟩
  · rintro n u m v ⟨cs, hs, hcs⟩ ⟨ds, hs', hds⟩
    exact hcs.append_inj hds (hs.symm.trans hs')

/-- A number of milliseconds, which could also be taken for one of seconds. -/
theorem parse?_eq_some_iff_spells_milliseconds :
    Spells "\u3000+500ms\n" 500 .milliseconds ∧
      (parse? "\u3000+500ms\n").map (·.nanoseconds) = some 500000000 ∧
      ∀ n u, Spells "\u3000+500ms\n" n u → n = 500 ∧ u = .milliseconds := by
  obtain ⟨hread, hunique⟩ := parse?_eq_some_iff_spells "\u3000+500ms\n"
  have hspells : Spells "\u3000+500ms\n" 500 .milliseconds :=
    ⟨['\u3000'], ['+', '5', '0', '0'], ['\n'], rfl, List.all_eq_true.1 (by decide),
      .signed (by decide) (List.all_eq_true.1 (by decide))⟩
  refine ⟨hspells, ?_, fun n u h => hunique n u 500 .milliseconds h hspells⟩
  have hd : parse? "\u3000+500ms\n" = some (ofMillis 500) :=
    (hread _).2 ⟨500, .milliseconds, hspells, ⟨by decide, nofun⟩, rfl⟩
  rw [hd]
  rfl

end Duration

end LocalTopology
