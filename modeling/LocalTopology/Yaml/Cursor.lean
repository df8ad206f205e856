import LocalTopology.Text.Ascii

/-!
# Reading characters

A cursor stands in a text and knows its line and column. A line ends at a carriage return, a line
feed, both together, a next line, or a line or paragraph separator; the first four read as a line
feed and the separators as themselves.
-/

namespace LocalTopology.Yaml

/-- A space or a tab. -/
def isSpace (c : Char) : Bool :=
  c == ' ' || c == '\t'

/-- A character that ends a line. -/
def isBreak (c : Char) : Bool :=
  c == '\r' || c == '\n' || c == '\u0085' || c == '\u2028' || c == '\u2029'

/-- A letter, digit, hyphen or underscore of the names of anchors, handles and directives. -/
def isNameChar (c : Char) : Bool :=
  c.isAlphanum || c == '_' || c == '-'

/-- A character that a document may hold. -/
def isAllowed (c : Char) : Bool :=
  let n := c.toNat
  n == 0x09 || n == 0x0A || n == 0x0D || (0x20 ≤ n && n ≤ 0x7E) || n == 0x85 ||
    (0xA0 ≤ n && n ≤ 0xD7FF) || (0xE000 ≤ n && n ≤ 0xFFFD) || 0x10000 ≤ n

/-- The byte order mark. -/
def byteOrderMark : Char := '\ufeff'

/-- A place in a text. -/
structure Cursor where
  rest : List Char
  index : Nat := 0
  line : Nat := 0
  column : Nat := 0

namespace Cursor

/-- The start of a text. -/
def ofChars (cs : List Char) : Cursor := { rest := cs }

/-- The character at an offset. -/
def peek? (c : Cursor) (offset : Nat) : Option Char :=
  c.rest[offset]?

/-- Whether the next character is a given one. -/
def isAt (c : Cursor) (char : Char) : Bool :=
  c.rest.head? == some char

/-- Whether the text ends here. -/
def atEnd (c : Cursor) : Bool :=
  c.rest.isEmpty

/-- Whether the character at an offset is of a class, if there is one. -/
def holds (c : Cursor) (offset : Nat) (p : Char → Bool) : Bool :=
  (c.peek? offset).any p

/-- Whether a space, a line end or the end of the text is at an offset. -/
def isGapAt (c : Cursor) (offset : Nat) : Bool :=
  (c.peek? offset).all fun ch => isSpace ch || isBreak ch

/-- Whether a line or the text ends here. -/
def atLineEnd (c : Cursor) : Bool :=
  (c.peek? 0).all isBreak

/-- The place `n` characters further on the line. -/
def skip (c : Cursor) (n : Nat) : Cursor :=
  { rest := c.rest.drop n, index := c.index + n, line := c.line, column := c.column + n }

/-- The longest run of characters of a class, and the place behind it. -/
def takeWhile (c : Cursor) (p : Char → Bool) : List Char × Cursor :=
  let run := c.rest.takeWhile p
  (run, c.skip run.length)

/-- The place behind a run of characters of a class. -/
def skipWhile (c : Cursor) (p : Char → Bool) : Cursor :=
  (c.takeWhile p).2

/-- A line end as it reads, and the place behind it; nothing when no line ends here. -/
def takeBreak (c : Cursor) : List Char × Cursor :=
  let next (read : List Char) (n : Nat) : List Char × Cursor :=
    (read, { rest := c.rest.drop n, index := c.index + n, line := c.line + 1, column := 0 })
  match c.rest with
  | '\r' :: '\n' :: _ => next ['\n'] 2
  | ch :: _ =>
    if ch == '\u2028' || ch == '\u2029' then next [ch] 1
    else if isBreak ch then next ['\n'] 1
    else ([], c)
  | [] => ([], c)

/-- The place behind a line end. -/
def skipBreak (c : Cursor) : Cursor :=
  c.takeBreak.2

/-- Whether three characters in the first column mark the start or end of a document. -/
def isMarker (c : Cursor) (mark : Char) : Bool :=
  c.column == 0 && c.isAt mark && c.peek? 1 == some mark && c.peek? 2 == some mark && c.isGapAt 3

/-- Whether a document starts or ends here. -/
def atMarker (c : Cursor) : Bool :=
  c.isMarker '-' || c.isMarker '.'

/-- The place behind spaces and a comment, at the end of the line. -/
def skipComment? (c : Cursor) : Option Cursor :=
  let c := c.skipWhile isSpace
  let c := if c.isAt '#' then c.skipWhile (!isBreak ·) else c
  if c.atLineEnd then some c.skipBreak else none

end Cursor

end LocalTopology.Yaml
