import LocalTopology.Decimal.Binary64
import LocalTopology.Text.Ascii

/-!
# Values in JSON

A strict reader of one value: nothing may follow it but blanks, control characters in text are
escaped, escapes of surrogates come in pairs, numbers are finite and nesting is limited.
-/

namespace LocalTopology.Json

open Text

/-- A value. Of numbers only their being there is kept. -/
inductive Value
  | null
  | bool (value : Bool)
  | number
  | text (value : String)
  | array (items : List Value)
  | object (members : List (String × Value))
  deriving Inhabited

/-- The text under a key; the last of several members counts. -/
def Value.text? (key : String) : Value → Option String
  | object members =>
    match members.reverse.lookup key with
    | some (text s) => some s
    | _ => none
  | _ => none

/-- The characters behind blanks. -/
def skipBlanks (cs : List Char) : List Char :=
  cs.dropWhile fun c => c == ' ' || c == '\t' || c == '\n' || c == '\r'

/-- The code unit that four hexadecimal digits stand for. -/
def codeUnit? : List Char → Option (Nat × List Char)
  | a :: b :: c :: d :: cs =>
    if [a, b, c, d].all isHexDigit then some (digitsValue 16 hexDigitValue 0 [a, b, c, d], cs)
    else none
  | _ => none

/-- The character that an escape of one letter stands for. -/
def escapeLetter? : Char → Option Char
  | '"' => some '"'
  | '\\' => some '\\'
  | '/' => some '/'
  | 'b' => some '\x08'
  | 'f' => some '\x0c'
  | 'n' => some '\n'
  | 'r' => some '\r'
  | 't' => some '\t'
  | _ => none

/-- The character of an escape by number; two code units that form a pair are one character. -/
def numbered? (cs : List Char) : Option (Char × List Char) :=
  match codeUnit? cs with
  | none => none
  | some (high, rest) =>
    if high < 0xD800 ∨ 0xDFFF < high then some (Char.ofNat high, rest)
    else if 0xDC00 ≤ high then none
    else
      match rest with
      | '\\' :: 'u' :: more =>
        match codeUnit? more with
        | some (low, rest) =>
          if 0xDC00 ≤ low ∧ low ≤ 0xDFFF then
            some (Char.ofNat (0x10000 + (high - 0xD800) * 0x400 + (low - 0xDC00)), rest)
          else none
        | none => none
      | _ => none

/-- The rest of a text behind its opening quote, in so many steps. -/
def text? : Nat → List Char → Option (List Char × List Char)
  | 0, _ => none
  | _, [] => none
  | _, '"' :: cs => some ([], cs)
  | n + 1, '\\' :: 'u' :: cs => do
    let (c, rest) ← numbered? cs
    let (more, rest) ← text? n rest
    return (c :: more, rest)
  | n + 1, '\\' :: letter :: cs => do
    let c ← escapeLetter? letter
    let (more, rest) ← text? n cs
    return (c :: more, rest)
  | n + 1, c :: cs => do
    if c < ' ' ∨ c = '\\' then none
    let (more, rest) ← text? n cs
    return (c :: more, rest)

/-- The digits of an exponent with its sign. -/
def exponent? (cs : List Char) : Option (Int × List Char) :=
  let (sign, cs) : Int × List Char := match cs with
    | '-' :: cs => (-1, cs)
    | '+' :: cs => (1, cs)
    | cs => (1, cs)
  (readNat? (cs.takeWhile Char.isDigit)).map fun n => (sign * n, cs.dropWhile Char.isDigit)

/-- What follows a number, which has no needless zeros in front and is finite. -/
def number? (cs : List Char) : Option (List Char) := do
  let cs := match cs with
    | '-' :: cs => cs
    | cs => cs
  let whole := cs.takeWhile Char.isDigit
  if whole.isEmpty ∨ (whole.head? = some '0' ∧ 1 < whole.length) then none
  let rest := cs.dropWhile Char.isDigit
  let (fraction, rest) ← match rest with
    | '.' :: more =>
      let digits := more.takeWhile Char.isDigit
      if digits.isEmpty then none else some (digits, more.dropWhile Char.isDigit)
    | _ => some ([], rest)
  let (exponent, rest) ← match rest with
    | 'e' :: more => exponent? more
    | 'E' :: more => exponent? more
    | _ => some (0, rest)
  let digits := digitsValue 10 digitValue 0 (whole ++ fraction)
  if (Decimal.Binary64.ofDecimal false digits (exponent - fraction.length)).isFinite then rest
  else none

/-- How deep values may nest. -/
def depthLimit : Nat := 127

mutual

/-- A value at the start of a text, in so many steps and inside so many others. -/
def value? : Nat → Nat → List Char → Option (Value × List Char)
  | 0, _, _ => none
  | n + 1, depth, cs =>
    match skipBlanks cs with
    | '{' :: rest =>
      if depth < depthLimit then
        match skipBlanks rest with
        | '}' :: rest => some (.object [], rest)
        | rest => (members? n (depth + 1) rest).map fun (ms, rest) => (.object ms, rest)
      else none
    | '[' :: rest =>
      if depth < depthLimit then
        match skipBlanks rest with
        | ']' :: rest => some (.array [], rest)
        | rest => (items? n (depth + 1) rest).map fun (vs, rest) => (.array vs, rest)
      else none
    | '"' :: rest => (text? (rest.length + 1) rest).map fun (s, rest) =>
      (.text (String.ofList s), rest)
    | 't' :: 'r' :: 'u' :: 'e' :: rest => some (.bool true, rest)
    | 'f' :: 'a' :: 'l' :: 's' :: 'e' :: rest => some (.bool false, rest)
    | 'n' :: 'u' :: 'l' :: 'l' :: rest => some (.null, rest)
    | rest => (number? rest).map fun rest => (.number, rest)

/-- The items of an array up to its closing bracket. -/
def items? : Nat → Nat → List Char → Option (List Value × List Char)
  | 0, _, _ => none
  | n + 1, depth, cs => do
    let (v, rest) ← value? n depth cs
    match skipBlanks rest with
    | ',' :: rest =>
      let (vs, rest) ← items? n depth rest
      return (v :: vs, rest)
    | ']' :: rest => return ([v], rest)
    | _ => none

/-- The members of an object up to its closing brace. -/
def members? : Nat → Nat → List Char → Option (List (String × Value) × List Char)
  | 0, _, _ => none
  | n + 1, depth, cs =>
    match skipBlanks cs with
    | '"' :: rest => do
      let (key, rest) ← text? (rest.length + 1) rest
      match skipBlanks rest with
      | ':' :: rest =>
        let (v, rest) ← value? n depth rest
        match skipBlanks rest with
        | ',' :: rest =>
          let (ms, rest) ← members? n depth rest
          return ((String.ofList key, v) :: ms, rest)
        | '}' :: rest => return ([(String.ofList key, v)], rest)
        | _ => none
      | _ => none
    | _ => none

end

/-- The value that a text consists of. -/
def read? (s : String) : Option Value :=
  let cs := s.toList
  match value? (cs.length + 1) 0 cs with
  | some (v, rest) => if (skipBlanks rest).isEmpty then some v else none
  | none => none

end LocalTopology.Json
