import LocalTopology.Yaml.Cursor

/-!
# The text of scalars

A scalar is written plain, between quotes, or as a block of lines. In the first two forms the white
space around a line end folds to one space, or to the further line ends if there are any (`Gap`); in
a block, lines keep their ends or fold, and a marker says what becomes of the last of them.
-/

namespace LocalTopology.Yaml

/-- White space between two parts of a scalar: spaces, or the first line end and those after it. -/
structure Gap where
  spaces : List Char := []
  firstBreak : Option (List Char) := none
  moreBreaks : List Char := []

namespace Gap

/-- What the gap reads as. -/
def text (g : Gap) : List Char :=
  match g.firstBreak with
  | none => g.spaces
  | some ['\n'] => if g.moreBreaks.isEmpty then [' '] else g.moreBreaks
  | some first => first ++ g.moreBreaks

/-- Reads spaces and line ends. A tab left of the column `limit` on a further line is refused. -/
def read? (limit : Nat) : Nat → Gap → Cursor → Option (Gap × Cursor)
  | 0, g, c => some (g, c)
  | fuel + 1, g, c =>
    match c.peek? 0 with
    | none => some (g, c)
    | some ch =>
      if isSpace ch then
        match g.firstBreak with
        | none => read? limit fuel { g with spaces := g.spaces ++ [ch] } (c.skip 1)
        | some _ =>
          if ch == '\t' && c.column < limit then none else read? limit fuel g (c.skip 1)
      else if isBreak ch then
        let (read, next) := c.takeBreak
        match g.firstBreak with
        | none => read? limit fuel { g with firstBreak := some read } next
        | some _ => read? limit fuel { g with moreBreaks := g.moreBreaks ++ read } next
      else some (g, c)

end Gap

/-- A scalar as it reads, the place behind it, and whether it ended behind a line end. -/
structure Reading where
  text : List Char
  next : Cursor
  brokeLine : Bool

namespace Reading

/-- The brackets, braces and the comma of flow collections. -/
def isFlowMark (c : Char) : Bool :=
  c == ',' || c == '[' || c == ']' || c == '\x7b' || c == '\x7d'

/-- A run of a plain scalar without white space: up to a colon before a gap and, inside a flow
collection, up to its marks. A colon before such a mark or a question mark is refused there. -/
def plainRun? (inFlow : Bool) : List Char → Option (List Char)
  | [] => some []
  | c :: cs =>
    if isSpace c || isBreak c then some []
    else if inFlow && c == ':' && cs.head?.any (fun d => isFlowMark d || d == '?') then none
    else if c == ':' && cs.head?.all (fun d => isSpace d || isBreak d) then some []
    else if inFlow && isFlowMark c then some []
    else (plainRun? inFlow cs).map (c :: ·)

/-- Reads a plain scalar whose further lines start in column `indent` at least, unless it is in a
flow collection. -/
def plain? (inFlow : Bool) (indent : Nat) : Nat → List Char → Gap → Cursor → Option Reading
  | 0, _, _, _ => none
  | fuel + 1, seen, gap, c =>
    let finish (c : Cursor) (gap : Gap) : Option Reading :=
      some { text := seen, next := c, brokeLine := gap.firstBreak.isSome }
    if c.atMarker || c.isAt '#' then finish c gap
    else
      match plainRun? inFlow c.rest with
      | none => none
      | some [] => finish c gap
      | some run =>
        let seen := seen ++ gap.text ++ run
        let c := c.skip run.length
        let finish (c : Cursor) (gap : Gap) : Option Reading :=
          some { text := seen, next := c, brokeLine := gap.firstBreak.isSome }
        if c.atEnd || !c.isGapAt 0 then finish c {}
        else
          match Gap.read? indent (c.rest.length + 1) {} c with
          | none => none
          | some (gap, c) =>
            if !inFlow && c.column < indent then finish c gap
            else plain? inFlow indent fuel seen gap c

/-- What a backslash and a character stand for between double quotes. -/
def escape? (c : Char) : Option Char :=
  match c with
  | '0' => some '\x00'
  | 'a' => some '\x07'
  | 'b' => some '\x08'
  | 't' | '\t' => some '\t'
  | 'n' => some '\n'
  | 'v' => some '\x0b'
  | 'f' => some '\x0c'
  | 'r' => some '\r'
  | 'e' => some '\x1b'
  | ' ' | '"' | '/' | '\\' => some c
  | 'N' => some '\u0085'
  | '_' => some '\u00a0'
  | 'L' => some '\u2028'
  | 'P' => some '\u2029'
  | _ => none

/-- How many hexadecimal digits follow a backslash and a character. -/
def escapeLength? (c : Char) : Option Nat :=
  match c with
  | 'x' => some 2
  | 'u' => some 4
  | 'U' => some 8
  | _ => none

/-- The character of a number of so many hexadecimal digits. -/
def hexChar? (digits : List Char) (length : Nat) : Option Char :=
  if digits.length = length ∧ digits.all Text.isHexDigit then
    let n := Text.digitsValue 16 Text.hexDigitValue 0 digits
    if n < 0xD800 ∨ (0xDFFF < n ∧ n ≤ 0x10FFFF) then some (Char.ofNat n) else none
  else none

/-- Reads the text of a quoted scalar up to the closing quote, one character, escape or gap at a
time. -/
def quoted? (quote : Char) : Nat → List Char → Cursor → Option Reading
  | 0, _, _ => none
  | fuel + 1, seen, c =>
    if c.atMarker then none
    else
      let gap (start : Gap) (c : Cursor) : Option Reading :=
        match Gap.read? 0 (c.rest.length + 1) start c with
        | none => none
        | some (g, c) => quoted? quote fuel (seen ++ g.text) c
      match c.rest with
      | [] => none
      | ch :: more =>
        if ch == quote then
          if quote == '\'' && more.head? == some quote then
            quoted? quote fuel (seen ++ [quote]) (c.skip 2)
          else some { text := seen, next := c.skip 1, brokeLine := false }
        else if isSpace ch || isBreak ch then gap {} c
        else if quote == '"' && ch == '\\' then
          match more with
          | [] => none
          | e :: digits =>
            if isBreak e then gap { firstBreak := some [] } (c.skip 1).skipBreak
            else
              match escape? e, escapeLength? e with
              | some read, _ => quoted? quote fuel (seen ++ [read]) (c.skip 2)
              | none, some n =>
                match hexChar? (digits.take n) n with
                | some read => quoted? quote fuel (seen ++ [read]) (c.skip (2 + n))
                | none => none
              | none, none => none
        else quoted? quote fuel (seen ++ [ch]) (c.skip 1)

/-- What becomes of the line ends at the end of a block. -/
inductive Chomping
  | strip
  | clip
  | keep
  deriving DecidableEq

/-- The indentation in front of a line of a block, and the line ends before it; `widest` is the
widest indentation seen so far. A tab in the indentation is refused. -/
def blockGap? (indent : Option Nat) :
    Nat → List Char → Nat → Cursor → Option (List Char × Nat × Cursor)
  | 0, breaks, widest, c => some (breaks, widest, c)
  | fuel + 1, breaks, widest, c =>
    let room := match indent with
      | some n => n - c.column
      | none => c.rest.length
    let c := c.skip (min room (c.rest.takeWhile (· == ' ')).length)
    let widest := max widest c.column
    if c.isAt '\t' && indent.all (c.column < ·) then none
    else if !c.atEnd && c.atLineEnd then
      let (read, c) := c.takeBreak
      blockGap? indent fuel (breaks ++ read) widest c
    else some (breaks, widest, c)

/-- Reads the lines of a block. `lastBreak` is the end of the line before, `breaks` are those of the
empty lines after it, and `wasSpaced` tells whether the line before started with a space. -/
def blockLines? (folded : Bool) (indent : Nat) :
    Nat → List Char → List Char → List Char → Bool → Cursor →
      Option (List Char × List Char × List Char × Cursor)
  | 0, _, _, _, _, _ => none
  | fuel + 1, seen, lastBreak, breaks, wasSpaced, c =>
    if c.column != indent || c.atEnd then some (seen, lastBreak, breaks, c)
    else
      let spaced := c.holds 0 isSpace
      let joint :=
        if folded && lastBreak == ['\n'] && !wasSpaced && !spaced then
          if breaks.isEmpty then [' '] else []
        else lastBreak
      let (line, c) := c.takeWhile (!isBreak ·)
      let (lineBreak, c) := c.takeBreak
      match blockGap? (some indent) (c.rest.length + 1) [] 0 c with
      | none => none
      | some (more, _, c) =>
        blockLines? folded indent fuel (seen ++ joint ++ breaks ++ line) lineBreak more spaced c

/-- A sign that says what becomes of the last line ends. -/
def chomping? (c : Char) : Option Chomping :=
  if c == '+' then some .keep else if c == '-' then some .strip else none

/-- The indicators behind the mark of a block, in either order: how many columns the block is
indented, and what becomes of its last line ends. -/
def blockIndicators? (c : Cursor) : Option (Option Nat × Chomping × Cursor) :=
  let width? (c : Cursor) : Option (Option Nat × Cursor) :=
    match c.peek? 0 with
    | some d =>
      if d == '0' then none
      else if d.isDigit then some (some (Text.digitValue d), c.skip 1)
      else some (none, c)
    | none => some (none, c)
  match (c.peek? 0).bind chomping? with
  | some chomping => (width? (c.skip 1)).map fun (width, c) => (width, chomping, c)
  | none =>
    match width? c with
    | none => none
    | some (none, c) => some (none, .clip, c)
    | some (some width, c) =>
      match (c.peek? 0).bind chomping? with
      | some chomping => some (some width, chomping, c.skip 1)
      | none => some (some width, .clip, c)

/-- Reads a block scalar behind its mark. The collection around it is indented by `parent`
columns, and by none if there is none. -/
def block? (folded : Bool) (parent : Option Nat) (c : Cursor) : Option Reading :=
  match blockIndicators? c with
  | none => none
  | some (width, chomping, c) =>
    match c.skipComment? with
    | none => none
    | some c =>
      let given := width.map fun n => n + parent.getD 0
      match blockGap? given (c.rest.length + 1) [] 0 c with
      | none => none
      | some (breaks, widest, c) =>
        let least := match parent with
          | some n => n + 1
          | none => 1
        let indent := given.getD (max widest least)
        match blockLines? folded indent (c.rest.length + 1) [] [] breaks false c with
        | none => none
        | some (seen, lastBreak, breaks, c) =>
          let tail := match chomping with
            | .strip => []
            | .clip => lastBreak
            | .keep => lastBreak ++ breaks
          some { text := seen ++ tail, next := c, brokeLine := false }

end Reading

end LocalTopology.Yaml
