/-!
# Case and digits

Hosts, header names and environment keys compare without regard to the case of ASCII letters, and
every other character stands for itself: `foldCase` is their canonical form (`foldCase_foldCase`).
Numbers are written in ASCII digits.
-/

namespace LocalTopology.Text

/-- The text with its ASCII capitals in lower case. -/
def foldCase (s : String) : String :=
  String.ofList (s.toList.map Char.toLower)

theorem toLower_eq_self {c : Char} (h : ¬ (65 ≤ c.val ∧ c.val ≤ 90)) : c.toLower = c :=
  dif_neg h

theorem toLower_toLower (c : Char) : c.toLower.toLower = c.toLower := by
  by_cases h : 65 ≤ c.val ∧ c.val ≤ 90
  · have hv : c.toLower.val = c.val + 32 := congrArg Char.val (dif_pos h)
    refine toLower_eq_self fun h' => ?_
    rw [hv, UInt32.le_iff_toNat_le, UInt32.le_iff_toNat_le, UInt32.toNat_add] at h'
    rw [UInt32.le_iff_toNat_le, UInt32.le_iff_toNat_le] at h
    simp at h h'
    omega
  · rw [toLower_eq_self h, toLower_eq_self h]

@[simp]
theorem foldCase_foldCase (s : String) : foldCase (foldCase s) = foldCase s := by
  simp only [foldCase, String.toList_ofList, List.map_map, Function.comp_def, toLower_toLower]

/-- Equality without regard to the case of ASCII letters. -/
def sameFolded (a b : String) : Bool :=
  foldCase a == foldCase b

/-- The number that a digit stands for. -/
def digitValue (c : Char) : Nat :=
  c.toNat - '0'.toNat

/-- The number that a run of digits stands for, after the digits already read. -/
def digitsValue (base : Nat) (value : Char → Nat) (seen : Nat) (cs : List Char) : Nat :=
  cs.foldl (fun n c => n * base + value c) seen

/-- One or more ASCII digits and nothing else, read as a decimal number. -/
def readNat? (cs : List Char) : Option Nat :=
  if cs ≠ [] ∧ cs.all Char.isDigit then some (digitsValue 10 digitValue 0 cs) else none

/-- A hexadecimal digit of either case. -/
def isHexDigit (c : Char) : Bool :=
  c.isDigit || ('a' ≤ c && c ≤ 'f') || ('A' ≤ c && c ≤ 'F')

/-- The number that a hexadecimal digit stands for. -/
def hexDigitValue (c : Char) : Nat :=
  if c.isDigit then c.toNat - 48 else c.toLower.toNat - 87

/-- The digits of `n` in base 16, with capitals and at least `width` of them. -/
def hexText (width n : Nat) : String :=
  let digits := (Nat.toDigits 16 n).map Char.toUpper
  String.ofList (digits.leftpad width '0')

end LocalTopology.Text
