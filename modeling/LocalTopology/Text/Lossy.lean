/-!
# Text from any bytes

Bytes are read as UTF-8. Where they are not well-formed, the longest beginning of a character that
is there gives way to one replacement character.
-/

namespace LocalTopology.Text

/-- The range of the byte that may follow a first one, and how many more bytes the character has
then. -/
def continuation? (first : Nat) : Option (Nat × Nat × Nat) :=
  if 0xC2 ≤ first ∧ first ≤ 0xDF then some (0x80, 0xBF, 0)
  else if first = 0xE0 then some (0xA0, 0xBF, 1)
  else if first = 0xED then some (0x80, 0x9F, 1)
  else if 0xE1 ≤ first ∧ first ≤ 0xEF then some (0x80, 0xBF, 1)
  else if first = 0xF0 then some (0x90, 0xBF, 2)
  else if 0xF1 ≤ first ∧ first ≤ 0xF3 then some (0x80, 0xBF, 2)
  else if first = 0xF4 then some (0x80, 0x8F, 2)
  else none

/-- A character of which some bytes have been read. -/
structure Unfinished where
  value : Nat
  low : Nat
  high : Nat
  /-- How many bytes come after the next one. -/
  more : Nat
  deriving DecidableEq, Inhabited

/-- The character that stands for bytes that are not well-formed. -/
def replacement : Char := '\ufffd'

/-- Begins a character with a byte. -/
def beginChar (b : Nat) : List Char × Option Unfinished :=
  if b < 0x80 then ([Char.ofNat b], none)
  else
    match continuation? b with
    | some (low, high, more) =>
      ([], some ⟨b % Nat.pow 2 (5 - more), low, high, more⟩)
    | none => ([replacement], none)

/-- Takes up a byte. -/
def takeByte (u : Option Unfinished) (b : Nat) : List Char × Option Unfinished :=
  match u with
  | none => beginChar b
  | some u =>
    if u.low ≤ b ∧ b ≤ u.high then
      let value := u.value * 64 + b % 64
      match u.more with
      | 0 => ([Char.ofNat value], none)
      | more + 1 => ([], some ⟨value, 0x80, 0xBF, more⟩)
    else
      let (cs, next) := beginChar b
      (replacement :: cs, next)

/-- The text of some bytes. -/
def lossy (bytes : List UInt8) : String :=
  let (cs, rest) := bytes.foldl (fun (cs, u) b =>
    let (new, u) := takeByte u b.toNat
    (new.reverse ++ cs, u)) (([], none) : List Char × Option Unfinished)
  String.ofList (if rest.isSome then replacement :: cs else cs).reverse

end LocalTopology.Text
