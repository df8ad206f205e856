import LocalTopology.Decimal.Shortest
import LocalTopology.Text.Ascii

/-!
# What plain scalars stand for

A plain scalar stands for nothing, a truth value, an integer in one of four bases, a real number, or
itself. A number with needless leading zeros is text, and so is a real number too large to be
finite.
-/

namespace LocalTopology.Yaml

open LocalTopology.Decimal

/-- What a scalar stands for. -/
inductive Atom
  | null
  | bool (value : Bool)
  | integer (value : Int)
  | real (value : Binary64)
  | text (value : String)
  deriving DecidableEq, Repr

namespace Plain

/-- The spellings of nothing, apart from the empty one. -/
def nulls : List String := ["~", "null", "Null", "NULL"]

/-- The truth value of a spelling. -/
def bool? (s : String) : Option Bool :=
  if ["true", "True", "TRUE"].contains s then some true
  else if ["false", "False", "FALSE"].contains s then some false
  else none

/-- Whether a number starts with a zero that is followed by further digits only. -/
def hasLeadingZeros (cs : List Char) : Bool :=
  let digits := match cs with
    | '+' :: rest => rest
    | '-' :: rest => rest
    | _ => cs
  1 < digits.length && digits.head? == some '0' && digits.all Char.isDigit

/-- A digit of a base up to 16. -/
def isDigitOf (base : Nat) (c : Char) : Bool :=
  Text.isHexDigit c && Text.hexDigitValue c < base

/-- The number of one or more digits of a base. -/
def digits? (base : Nat) (cs : List Char) : Option Nat :=
  if cs ≠ [] ∧ cs.all (isDigitOf base) then
    some (Text.digitsValue base Text.hexDigitValue 0 cs)
  else none

/-- The bases that a mark behind a zero announces. -/
def bases : List (Char × Nat) := [('x', 16), ('o', 8), ('b', 2)]

/-- The number of digits in one of the marked bases. -/
def marked? (cs : List Char) : Option Nat :=
  match cs with
  | '0' :: mark :: digits => (bases.lookup mark).bind fun base => digits? base digits
  | _ => none

/-- The least and the greatest integers that can be read. -/
def leastInteger : Int := -Int.pow 2 127

/-- The greatest integer that can be read. -/
def greatestInteger : Int := Int.pow 2 128 - 1

/-- The integer of a scalar: a sign or none, then digits of a marked base, or decimal digits
without leading zeros. -/
def integer? (cs : List Char) : Option Int :=
  let (isNegative, unsigned) := match cs with
    | '-' :: rest => (true, rest)
    | '+' :: rest => (false, rest)
    | _ => (false, cs)
  let magnitude := match marked? unsigned with
    | some n => some n
    | none => if hasLeadingZeros cs then none else digits? 10 unsigned
  (magnitude.map fun n => if isNegative then -(n : Int) else (n : Int)).filter fun n =>
    leastInteger ≤ n && n ≤ greatestInteger

/-- The power of ten behind the digits of a real number. -/
def exponent? (cs : List Char) : Option Int :=
  match cs with
  | [] => some 0
  | e :: rest =>
    if e = 'e' ∨ e = 'E' then
      match rest with
      | '-' :: digits => (Text.readNat? digits).map fun n => -(n : Int)
      | '+' :: digits => (Text.readNat? digits).map fun n => (n : Int)
      | digits => (Text.readNat? digits).map fun n => (n : Int)
    else none

/-- The real number of decimal digits with a point among them or none, and a power of ten. -/
def decimal? (isNegative : Bool) (cs : List Char) : Option Binary64 :=
  let whole := cs.takeWhile Char.isDigit
  let rest := cs.dropWhile Char.isDigit
  let (fraction, rest) := match rest with
    | '.' :: rest => (rest.takeWhile Char.isDigit, rest.dropWhile Char.isDigit)
    | _ => ([], rest)
  if whole.isEmpty && fraction.isEmpty then none
  else
    (exponent? rest).map fun e =>
      Binary64.ofDecimal isNegative
        (Text.digitsValue 10 Text.digitValue 0 (whole ++ fraction)) (e - fraction.length)

/-- The real number of a scalar. -/
def real? (cs : List Char) : Option Binary64 :=
  let unplussed := match cs with
    | '+' :: rest => rest
    | _ => cs
  if [".inf", ".Inf", ".INF"].contains (String.ofList unplussed) then some (.infinite false)
  else if ["-.inf", "-.Inf", "-.INF"].contains (String.ofList cs) then some (.infinite true)
  else if [".nan", ".NaN", ".NAN"].contains (String.ofList cs) then some .notANumber
  else
    let value := match cs with
      | '-' :: rest => decimal? true rest
      | _ => decimal? false unplussed
    value.filter Binary64.isFinite

/-- What a plain scalar stands for. -/
def atom (s : String) : Atom :=
  let cs := s.toList
  if s.isEmpty || nulls.contains s then .null
  else
    match bool? s with
    | some b => .bool b
    | none =>
      match integer? cs with
      | some n => .integer n
      | none =>
        if hasLeadingZeros cs then .text s
        else
          match real? cs with
          | some x => .real x
          | none => .text s

end Plain

end LocalTopology.Yaml
