import LocalTopology.Text.Ascii

/-!
# Numeric addresses

An address of four octets is written as up to four numbers, of which the last one fills the octets
that are left. An address of eight groups is written in hexadecimal digits; one run of zero groups
may be left out, and the last two groups may be written as four octets.
-/

namespace LocalTopology.Url

open Text

/-- Digits of a base, read as a number; no digits at all are zero. -/
def baseNumber? (base : Nat) (isDigit : Char → Bool) (cs : List Char) : Option Nat :=
  if cs.all isDigit then some (digitsValue base hexDigitValue 0 cs) else none

/-- A number of an address: octal after a zero, hexadecimal after a zero and an `x`, else decimal.
-/
def addressNumber? : List Char → Option Nat
  | [] => none
  | '0' :: 'x' :: cs => baseNumber? 16 isHexDigit cs
  | '0' :: 'X' :: cs => baseNumber? 16 isHexDigit cs
  | '0' :: c :: cs => baseNumber? 8 (fun d => '0' ≤ d && d ≤ '7') (c :: cs)
  | cs => baseNumber? 10 Char.isDigit cs

/-- The parts of a name between its dots, without the empty one behind a dot at the end. -/
def nameParts (cs : List Char) : List (List Char) :=
  let parts := cs.splitOn '.'
  if 1 < parts.length && parts.getLast? == some [] then parts.dropLast else parts

/-- Whether a name ends in a number, and so is an address or nothing. -/
def endsInNumber (cs : List Char) : Bool :=
  match (nameParts cs).getLast? with
  | some last => (!last.isEmpty && last.all Char.isDigit) || (addressNumber? last).isSome
  | none => false

/-- The value of the numbers of an address, of which the last one fills `octets` octets. -/
def addressValue? : Nat → List Nat → Option Nat
  | octets, [last] => if last < Nat.pow 256 octets then some last else none
  | octets + 1, n :: ns =>
    if n < 256 then (addressValue? octets ns).map (n * Nat.pow 256 octets + ·) else none
  | _, _ => none

/-- The address of four octets that a name stands for. -/
def octetAddress? (cs : List Char) : Option Nat :=
  ((nameParts cs).mapM addressNumber?).bind (addressValue? 4)

/-- One to four hexadecimal digits. -/
def group? (cs : List Char) : Option Nat :=
  if !cs.isEmpty && cs.length ≤ 4 && cs.all isHexDigit then
    some (digitsValue 16 hexDigitValue 0 cs)
  else none

/-- A number below 256 without zeros in front. -/
def octet? (cs : List Char) : Option Nat :=
  if cs.length > 1 && cs.head? == some '0' then none else (readNat? cs).filter (· < 256)

/-- Four octets, as two groups. -/
def octetGroups? (cs : List Char) : Option (List Nat) :=
  match (cs.splitOn '.').map octet? with
  | [some a, some b, some c, some d] => some [a * 256 + b, c * 256 + d]
  | _ => none

/-- Groups, of which the last may be written as four octets if that is allowed. -/
def groups? (allowsOctets : Bool) : List (List Char) → Option (List Nat)
  | [] => some []
  | [last] =>
    match group? last with
    | some n => some [n]
    | none => if allowsOctets then octetGroups? last else none
  | g :: gs => do
    let n ← group? g
    let ns ← groups? allowsOctets gs
    return n :: ns

/-- The text around the first two colons that stand together. -/
def cutGap? : List Char → Option (List Char × List Char)
  | ':' :: ':' :: cs => some ([], cs)
  | c :: cs => (cutGap? cs).map fun (before, after) => (c :: before, after)
  | [] => none

/-- The texts of the groups between colons. -/
def groupTexts (cs : List Char) : List (List Char) :=
  if cs.isEmpty then [] else cs.splitOn ':'

/-- The eight groups of an address. -/
def groupAddress? (cs : List Char) : Option (List Nat) :=
  match cutGap? cs with
  | some (before, after) => do
    let left ← groups? false (groupTexts before)
    let right ← groups? true (groupTexts after)
    let count := left.length + right.length
    if count < 8 then return left ++ List.replicate (8 - count) 0 ++ right else none
  | none => (groups? true (groupTexts cs)).filter (·.length = 8)

end LocalTopology.Url
