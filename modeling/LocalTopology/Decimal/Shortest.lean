import LocalTopology.Decimal.Binary64

/-!
# Shortest decimals

The decimal of a floating point number is the one with the fewest digits among those that read back
as that number, and the nearest to it of those. Every decimal strictly between the midpoints to the
two neighbours reads back, and the midpoints themselves do when the mantissa is even.
-/

namespace LocalTopology.Decimal

/-- Digits, without zeros at either end, and the power of ten of the last of them. -/
structure Digits where
  digits : Nat
  exponent : Int
  deriving DecidableEq, Repr

namespace Digits

/-- The digits as text. -/
def text (d : Digits) : List Char :=
  Nat.toDigits 10 d.digits

/-- Drops the zeros at the end of the digits, for at most `fuel` of them. -/
def dropZeros : Nat → Digits → Digits
  | 0, d => d
  | fuel + 1, d =>
    if d.digits ≠ 0 ∧ d.digits % 10 = 0 then dropZeros fuel ⟨d.digits / 10, d.exponent + 1⟩ else d

/-- The first of the grids of powers of ten, from `exponent` downwards, with a point strictly
inside the interval from `low` to `high` (or at its ends, where these count), and of the two points
next to the middle the nearer one; all four numbers are multiples of `1 / den`. -/
def search (low middle high den : Nat) (ends : Bool) : Nat → Int → Digits
  | 0, exponent => ⟨0, exponent⟩
  | fuel + 1, exponent =>
    let (up, down) :=
      if 0 ≤ exponent then (Nat.pow 10 exponent.toNat, 1) else (1, Nat.pow 10 (-exponent).toNat)
    let unit := up * den
    let below := middle * down / unit
    let inside (k : Nat) : Bool :=
      let point := k * unit
      if ends then low * down ≤ point && point ≤ high * down
      else low * down < point && point < high * down
    let gapBelow := middle * down - below * unit
    let gapAbove := (below + 1) * unit - middle * down
    match inside below && below != 0, inside (below + 1) with
    | true, true =>
      if gapBelow < gapAbove ∨ (gapBelow = gapAbove ∧ below % 2 = 0) then ⟨below, exponent⟩
      else ⟨below + 1, exponent⟩
    | true, false => ⟨below, exponent⟩
    | false, true => ⟨below + 1, exponent⟩
    | false, false => search low middle high den ends fuel (exponent - 1)

/-- The shortest digits of a positive number `mantissa * 2 ^ exponent`. -/
def shortest (mantissa : Nat) (exponent : Int) : Digits :=
  let narrow := mantissa = Nat.pow 2 52 ∧ Binary64.minExponent < exponent
  let shift := Nat.pow 2 (exponent - 2).toNat
  let den := Nat.pow 2 (2 - exponent).toNat
  let low := (4 * mantissa - (if narrow then 1 else 2)) * shift
  let middle := 4 * mantissa * shift
  let high := (4 * mantissa + 2) * shift
  let start : Int := (Nat.log2 mantissa : Int) + exponent
  let top : Int := if 0 ≤ start then start / 3 + 1 else start / 4 + 1
  dropZeros 400 (search low middle high den (mantissa % 2 = 0) 800 top)

end Digits

/-- How a finite number is set in digits. -/
structure Layout where
  /-- The least place of the point, counted from the first digit, that is written with zeros. -/
  leastPoint : Int
  /-- The greatest such place. -/
  greatestPoint : Int
  /-- The texts of infinity and of an undefined number. -/
  infinity : String
  notANumber : String

namespace Layout

/-- The text of a positive number: positional while the point is near the digits, and otherwise
one digit before the point and a power of ten. -/
def digitsText (l : Layout) (d : Digits) : String :=
  let ds := d.text
  let point : Int := ds.length + d.exponent
  String.ofList <|
    if 0 ≤ d.exponent ∧ point ≤ l.greatestPoint then
      ds ++ List.replicate d.exponent.toNat '0' ++ ['.', '0']
    else if 0 < point ∧ point ≤ l.greatestPoint then
      ds.take point.toNat ++ '.' :: ds.drop point.toNat
    else if l.leastPoint < point ∧ point ≤ 0 then
      '0' :: '.' :: List.replicate (-point).toNat '0' ++ ds
    else
      let tail := 'e' :: (toString (point - 1)).toList
      match ds with
      | [] => tail
      | [c] => c :: tail
      | c :: cs => c :: '.' :: cs ++ tail

/-- The text of a number. -/
def text (l : Layout) : Binary64 → String
  | .notANumber => l.notANumber
  | .infinite negative => (if negative then "-" else "") ++ l.infinity
  | .finite negative mantissa exponent =>
    (if negative then "-" else "") ++
      if mantissa = 0 then "0.0" else l.digitsText (Digits.shortest mantissa exponent)

end Layout

end LocalTopology.Decimal
