import LocalTopology.Yaml.Scalar

/-!
# Tokens

A document is a list of tokens. Indentation becomes tokens of its own: a collection starts where a
line is indented further than the one around it and ends where a line is indented less. A text that
turns out to be a key, as a colon follows on its line, receives its key token in front of it
afterwards, at the place that was remembered when it was read.
-/

namespace LocalTopology.Yaml

/-- A word or a mark of a document. -/
inductive Token
  | version (major minor : Nat)
  | shorthand (handle full : String)
  | documentStart
  | documentEnd
  | blockSequence
  | blockMapping
  | blockEnd
  | flowSequence
  | flowSequenceEnd
  | flowMapping
  | flowMappingEnd
  | entry
  | comma
  | key
  | value
  | alias (name : String)
  | anchor (name : String)
  | tag (handle suffix : String)
  | scalar (isPlain : Bool) (text : String)
  deriving DecidableEq, Repr

/-- A place that may turn out to be the start of a key on one line. -/
structure KeyPlace where
  /-- How many tokens precede it. -/
  number : Nat
  index : Nat
  line : Nat
  column : Nat
  /-- Whether nothing but a key may stand here. -/
  isRequired : Bool

/-- A place lapses at the end of its line and after 1024 characters. -/
def KeyPlace.hasLapsed (p : KeyPlace) (c : Cursor) : Bool :=
  p.line < c.line || p.index + 1024 < c.index

/-- The state between two tokens. The latest token comes first, and the place of the flow collection
around the current one comes after it. -/
structure Scan where
  cursor : Cursor
  tokens : List Token := []
  count : Nat := 0
  /-- The column of the current block collection, if there is one, and of those around it. -/
  indent : Option Nat := none
  indents : List (Option Nat) := []
  /-- Whether a key may start here. -/
  keyAllowed : Bool := true
  /-- A place for a key in the block collections, then in each flow collection around the cursor. -/
  places : List (Option KeyPlace) := [none]

namespace Scan

/-- The state at the start of a text. -/
def ofChars (cs : List Char) : Scan := { cursor := Cursor.ofChars cs }

/-- Whether the cursor is inside a flow collection. -/
def inFlow (s : Scan) : Bool :=
  1 < s.places.length

/-- Adds a token at the end. -/
def push (s : Scan) (t : Token) : Scan :=
  { s with tokens := t :: s.tokens, count := s.count + 1 }

/-- Adds a token with a number of tokens in front of it. -/
def insertAt (s : Scan) (number : Nat) (t : Token) : Scan :=
  let later := s.count - number
  { s with tokens := s.tokens.take later ++ t :: s.tokens.drop later, count := s.count + 1 }

/-- Moves the cursor over the characters of a token. -/
def skip (s : Scan) (n : Nat) : Scan :=
  { s with cursor := s.cursor.skip n }

/-- Gives up the current place for a key, unless a key must stand there. -/
def dropPlace? (s : Scan) : Option Scan :=
  match s.places with
  | some p :: ps => if p.isRequired then none else some { s with places := none :: ps }
  | _ => some s

/-- Remembers that a key may start here. -/
def markPlace? (s : Scan) : Option Scan :=
  if s.keyAllowed then
    let place : KeyPlace :=
      { number := s.count
        index := s.cursor.index
        line := s.cursor.line
        column := s.cursor.column
        isRequired := !s.inFlow && s.indent == some s.cursor.column }
    s.dropPlace?.map fun s => { s with places := some place :: s.places.tail }
  else some s

/-- Gives up the places for keys that have lapsed, unless a key must stand there. -/
def dropLapsed? (s : Scan) : Option Scan :=
  let lapsed := s.places.filterMap fun p => p.filter (·.hasLapsed s.cursor)
  if lapsed.any (·.isRequired) then none
  else some { s with places := s.places.map fun p => p.filter (!·.hasLapsed s.cursor) }

/-- Starts a block collection if the column lies to the right of the current one; its token goes
in front of the token with the given number. -/
def indentTo (s : Scan) (column number : Nat) (start : Token) : Scan :=
  if !s.inFlow && s.indent.all (· < column) then
    { s with indent := some column, indents := s.indent :: s.indents }.insertAt number start
  else s

/-- Ends the block collections that lie to the right of a column, or all of them. -/
def endBlocks (column : Option Nat) : Option Nat → List (Option Nat) → List Token → Nat →
    Option Nat × List (Option Nat) × List Token × Nat
  | some indent, outer :: indents, tokens, count =>
    if column.all (· < indent) then endBlocks column outer indents (.blockEnd :: tokens) (count + 1)
    else (some indent, outer :: indents, tokens, count)
  | indent, indents, tokens, count => (indent, indents, tokens, count)

/-- Ends the block collections that lie to the right of a column, or all of them. -/
def dedentTo (s : Scan) (column : Option Nat) : Scan :=
  if s.inFlow then s
  else
    let (indent, indents, tokens, count) :=
      endBlocks column s.indent s.indents s.tokens s.count
    { s with indent, indents, tokens, count }

/-- Skips spaces, comments and line ends up to the next token. Tabs count as spaces in a flow
collection and where no key may start. -/
def skipGaps : Nat → Scan → Scan
  | 0, s => s
  | fuel + 1, s =>
    let c := if s.cursor.column == 0 && s.cursor.isAt byteOrderMark then s.cursor.skip 1
      else s.cursor
    let c := c.skipWhile fun ch => ch == ' ' || ((s.inFlow || !s.keyAllowed) && ch == '\t')
    let c := if c.isAt '#' then c.skipWhile (!isBreak ·) else c
    if !c.atEnd && c.atLineEnd then
      skipGaps fuel { s with cursor := c.skipBreak, keyAllowed := s.keyAllowed || !s.inFlow }
    else { s with cursor := c }

/-- The name of an anchor or an alias behind its mark. -/
def name? (c : Cursor) : Option (String × Cursor) :=
  let (name, c) := (c.skip 1).takeWhile isNameChar
  let ends := c.isGapAt 0 || c.holds 0 (['?', ':', ',', ']', '\x7d', '%', '@', '\x60'].contains ·)
  if name.isEmpty || !ends then none else some (String.ofList name, c)

/-- The bytes of a percent-encoded character: how many there are, by the first of them. -/
def octetCount? (first : Nat) : Option Nat :=
  if first < 0x80 then some 1
  else if 0xC0 ≤ first && first < 0xE0 then some 2
  else if 0xE0 ≤ first && first < 0xF0 then some 3
  else if 0xF0 ≤ first && first < 0xF8 then some 4
  else none

/-- Reads percent-encoded bytes, so many of them. -/
def octets? : Nat → List Char → Option (List Nat × List Char)
  | 0, cs => some ([], cs)
  | n + 1, '%' :: a :: b :: cs =>
    if Text.isHexDigit a && Text.isHexDigit b then
      (octets? n cs).map fun (bytes, cs) =>
        (Text.digitsValue 16 Text.hexDigitValue 0 [a, b] :: bytes, cs)
    else none
  | _ + 1, _ => none

/-- Reads one percent-encoded character. -/
def encodedChar? (cs : List Char) : Option (List Char × List Char) :=
  match octets? 1 cs with
  | some ([first], _) =>
    match octetCount? first with
    | some n =>
      match octets? n cs with
      | some (bytes, rest) =>
        if bytes.tail.all fun b => 0x80 ≤ b && b < 0xC0 then
          let text := (String.fromUTF8? ⟨(bytes.map UInt8.ofNat).toArray⟩).getD "\ufffd"
          some (text.toList, rest)
        else none
      | none => none
    | none => none
  | _ => none

/-- A character of a tag; commas and brackets belong to one in angle brackets only. -/
def isTagChar (isWhole : Bool) (c : Char) : Bool :=
  isNameChar c || ";/?:@&=+$.%!~*'()".contains c || (isWhole && ",[]".contains c)

/-- Reads the characters of a tag, decoding what is percent-encoded. -/
def tagText? (isWhole : Bool) : Nat → List Char → List Char → Option (List Char × List Char)
  | 0, _, _ => none
  | fuel + 1, seen, cs =>
    match cs with
    | c :: rest =>
      if !isTagChar isWhole c then some (seen, cs)
      else if c == '%' then
        match encodedChar? cs with
        | some (text, rest) => tagText? isWhole fuel (seen ++ text) rest
        | none => none
      else tagText? isWhole fuel (seen ++ [c]) rest
    | [] => some (seen, cs)

/-- Reads the characters of a tag at a place. -/
def tagTextAt? (isWhole : Bool) (c : Cursor) : Option (List Char × Cursor) :=
  (tagText? isWhole (c.rest.length + 1) [] c.rest).map fun (text, rest) =>
    (text, c.skip (c.rest.length - rest.length))

/-- A handle: an exclamation mark, a name, and in most cases another mark. -/
def handle (c : Cursor) : List Char × Cursor :=
  let (name, c) := (c.skip 1).takeWhile isNameChar
  if c.isAt '!' then ('!' :: name ++ ['!'], c.skip 1) else ('!' :: name, c)

/-- Reads a tag. -/
def tag? (inFlow : Bool) (c : Cursor) : Option (Token × Cursor) :=
  let read : Option (Token × Cursor) :=
    if c.peek? 1 == some '<' then
      match tagTextAt? true (c.skip 2) with
      | some (text, c) =>
        if text.isEmpty || !c.isAt '>' then none
        else some (.tag "" (String.ofList text), c.skip 1)
      | none => none
    else
      let (marked, next) := handle c
      if 1 < marked.length && marked.getLast? == some '!' then
        match tagTextAt? false next with
        | some (text, c) =>
          if text.isEmpty then none
          else some (.tag (String.ofList marked) (String.ofList text), c)
        | none => none
      else
        match tagTextAt? false next with
        | some (text, c) =>
          let suffix := marked.tail ++ text
          if suffix.isEmpty then some (.tag "" "!", c)
          else some (.tag "!" (String.ofList suffix), c)
        | none => none
  read.bind fun (t, c) =>
    if c.isGapAt 0 || (inFlow && c.isAt ',') then some (t, c) else none

/-- A number of a version: at most nine digits. -/
def versionNumber? (c : Cursor) : Option (Nat × Cursor) :=
  let (digits, c) := c.takeWhile Char.isDigit
  if digits.isEmpty || 9 < digits.length then none
  else some (Text.digitsValue 10 Text.digitValue 0 digits, c)

/-- Reads a directive up to the end of its line. -/
def directive? (c : Cursor) : Option (Token × Cursor) :=
  let (name, c) := (c.skip 1).takeWhile isNameChar
  if name.isEmpty || !c.isGapAt 0 then none
  else
    let c := c.skipWhile isSpace
    let read : Option (Token × Cursor) :=
      if String.ofList name == "YAML" then do
        let (major, c) ← versionNumber? c
        if c.isAt '.' then
          let (minor, c) ← versionNumber? (c.skip 1)
          return (.version major minor, c)
        else none
      else if String.ofList name == "TAG" then
        if !c.isAt '!' then none
        else
          let (marked, c) := handle c
          if marked.getLast? != some '!' || !c.holds 0 isSpace then none
          else
            match tagTextAt? true (c.skipWhile isSpace) with
            | some (text, c) =>
              if text.isEmpty || !c.isGapAt 0 then none
              else some (.shorthand (String.ofList marked) (String.ofList text), c)
            | none => none
      else none
    read.bind fun (t, c) => c.skipComment?.map fun c => (t, c)

/-- Reads a token that stands for itself, of so many characters. -/
def mark (s : Scan) (t : Token) (n : Nat) : Scan :=
  (s.push t).skip n

/-- A hyphen, the start of an entry. -/
def entry? (s : Scan) : Option Scan :=
  if !s.inFlow && !s.keyAllowed then none
  else
    (s.indentTo s.cursor.column s.count .blockSequence).dropPlace?.map fun s =>
      { s with keyAllowed := true }.mark .entry 1

/-- A question mark, the start of a key of any kind. -/
def key? (s : Scan) : Option Scan :=
  if !s.inFlow && !s.keyAllowed then none
  else
    (s.indentTo s.cursor.column s.count .blockMapping).dropPlace?.map fun s =>
      { s with keyAllowed := !s.inFlow }.mark .key 1

/-- A colon, the start of a value. If a key may have started on the line, it did. -/
def value? (s : Scan) : Option Scan :=
  match s.places with
  | some p :: ps =>
    let s := (s.insertAt p.number .key).indentTo p.column p.number .blockMapping
    some ({ s with places := none :: ps, keyAllowed := false }.mark .value 1)
  | _ =>
    if !s.inFlow && !s.keyAllowed then none
    else
      let s := s.indentTo s.cursor.column s.count .blockMapping
      some ({ s with keyAllowed := !s.inFlow }.mark .value 1)

/-- Adds the token of a scalar. -/
def scalar (s : Scan) (isPlain : Bool) (r : Reading) : Scan :=
  { s.push (.scalar isPlain (String.ofList r.text)) with
    cursor := r.next
    keyAllowed := s.keyAllowed || r.brokeLine }

/-- A mark that may stand at the start of a token, though not of a plain scalar. -/
def isIndicator (c : Char) : Bool :=
  "-?:,[]\x7b\x7d#&*!|>'\"%@\x60".toList.contains c

/-- Whether a plain scalar starts here. -/
def startsPlain (s : Scan) (c : Char) : Bool :=
  !isIndicator c || (c == '-' && !s.cursor.holds 1 isSpace) ||
    (!s.inFlow && (c == '?' || c == ':') && !s.cursor.isGapAt 1)

/-- Reads one token and whatever follows from its indentation; the text has not ended. -/
def token? (s : Scan) (c : Char) : Option Scan :=
  let cursor := s.cursor
  if cursor.column == 0 && c == '%' then do
    let s ← (s.dedentTo none).dropPlace?
    let (t, next) ← directive? cursor
    return { s.push t with cursor := next, keyAllowed := false }
  else if cursor.isMarker '-' || cursor.isMarker '.' then do
    let s ← (s.dedentTo none).dropPlace?
    let t := if c == '-' then Token.documentStart else .documentEnd
    return { s with keyAllowed := false }.mark t 3
  else if c == '[' || c == '\x7b' then do
    let s ← s.markPlace?
    let t := if c == '[' then Token.flowSequence else .flowMapping
    return { s with places := none :: s.places, keyAllowed := true }.mark t 1
  else if c == ']' || c == '\x7d' then do
    let s ← s.dropPlace?
    let t := if c == ']' then Token.flowSequenceEnd else .flowMappingEnd
    let places := if s.inFlow then s.places.tail else s.places
    return { s with places, keyAllowed := false }.mark t 1
  else if c == ',' then do
    let s ← s.dropPlace?
    return { s with keyAllowed := true }.mark .comma 1
  else if c == '-' && cursor.isGapAt 1 then s.entry?
  else if c == '?' && (s.inFlow || cursor.isGapAt 1) then s.key?
  else if c == ':' && (s.inFlow || cursor.isGapAt 1) then s.value?
  else if c == '*' || c == '&' then do
    let s ← s.markPlace?
    let (name, next) ← name? cursor
    let t := if c == '*' then Token.alias name else .anchor name
    return { s.push t with cursor := next, keyAllowed := false }
  else if c == '!' then do
    let s ← s.markPlace?
    let (t, next) ← tag? s.inFlow cursor
    return { s.push t with cursor := next, keyAllowed := false }
  else if (c == '|' || c == '>') && !s.inFlow then do
    let s ← s.dropPlace?
    let r ← Reading.block? (c == '>') s.indent (cursor.skip 1)
    return { s with keyAllowed := true }.scalar false r
  else if c == '\'' || c == '"' then do
    let s ← s.markPlace?
    let r ← Reading.quoted? c (cursor.rest.length + 1) [] (cursor.skip 1)
    return { s with keyAllowed := false }.scalar false r
  else if s.startsPlain c then do
    let s ← s.markPlace?
    let indent := match s.indent with
      | some n => n + 1
      | none => 0
    let r ← Reading.plain? s.inFlow indent (cursor.rest.length + 1) [] {} cursor
    return { s with keyAllowed := false }.scalar true r
  else none

/-- Reads all tokens up to the end of the text. -/
def run? : Nat → Scan → Option Scan
  | 0, _ => none
  | fuel + 1, s => do
    let s := skipGaps (s.cursor.rest.length + 1) s
    let s ← s.dropLapsed?
    let s := s.dedentTo (some s.cursor.column)
    match s.cursor.peek? 0 with
    | none => (s.dedentTo none).dropPlace?
    | some c => run? fuel (← s.token? c)

end Scan

/-- The tokens of a text, if it is made of tokens. -/
def Token.scan? (cs : List Char) : Option (List Token) :=
  if cs.all isAllowed then
    (Scan.run? (cs.length + 1) (Scan.ofChars cs)).map (·.tokens.reverse)
  else none

end LocalTopology.Yaml
