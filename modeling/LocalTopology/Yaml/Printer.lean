import LocalTopology.Text.Ascii
import LocalTopology.Yaml.Node
import LocalTopology.Yaml.Plain
import LocalTopology.Yaml.Scalar

/-!
# Writing nodes

Collections are written as blocks, indented by two columns, and the entries of a sequence under a
key start in the column of the key. A text is written plain if it reads back as itself, between
single quotes if it would read as something else, as a block if it has several lines, and between
double quotes if it holds characters that cannot be shown.
-/

namespace LocalTopology.Yaml

namespace Printer

/-- How the text of a scalar is written. -/
inductive Style
  | plain
  | single
  | double
  | literal
  deriving DecidableEq

/-- A character that is written as it is. -/
def isPrintable (c : Char) : Bool :=
  let n := c.toNat
  n == 0x0A || (0x20 ≤ n && n ≤ 0x7E) || (0xA0 ≤ n && n ≤ 0xFFFD && n != 0xFEFF) || 0x10000 ≤ n

/-- Whether a space, a tab, a line end or nothing comes first. -/
def startsGap (cs : List Char) : Bool :=
  cs.head?.all fun c => isSpace c || isBreak c

/-- Whether the first character of a text, followed by `rest`, would be taken for a mark. -/
def isLeadingMark (c : Char) (rest : List Char) : Bool :=
  "#,[]\x7b\x7d&*!|>'\"%@\x60".toList.contains c || ("?:-".toList.contains c && startsGap rest)

/-- Whether a character behind the first would be taken for a mark. -/
def isInnerMark (before c : Char) (rest : List Char) : Bool :=
  (c == ':' && startsGap rest) || (c == '#' && (isSpace before || isBreak before))

/-- Whether some character behind the first would be taken for a mark. -/
def hasInnerMark : List Char → Bool
  | before :: c :: rest => isInnerMark before c rest || hasInnerMark (c :: rest)
  | _ => false

/-- Whether a text would be taken for the mark of a document or for marks inside it. -/
def hasMark (cs : List Char) : Bool :=
  match cs with
  | [] => false
  | c :: rest =>
    cs.take 3 == ['-', '-', '-'] || cs.take 3 == ['.', '.', '.'] || isLeadingMark c rest ||
      hasInnerMark cs

/-- Whether a character of one class is followed directly by one of another. -/
def hasPair (p q : Char → Bool) : List Char → Bool
  | a :: b :: rest => (p a && q b) || hasPair p q (b :: rest)
  | _ => false

/-- Whether a text of one line would read as something else than text. -/
def readsAsOther (s : String) : Bool :=
  match Plain.atom s with
  | .text _ => Plain.hasLeadingZeros s.toList
  | _ => true

/-- Whether a text may be written plain. -/
def allowsPlain (cs : List Char) : Bool :=
  let isWide (c : Char) : Bool := c == ' ' || isBreak c
  cs.all isPrintable && !cs.any isBreak && !cs.head?.any isWide && !cs.getLast?.any isWide &&
    !hasMark cs

/-- Whether a text may be written between single quotes. -/
def allowsSingle (cs : List Char) : Bool :=
  cs.all isPrintable && !hasPair isBreak (· == ' ') cs && !hasPair (· == ' ') isBreak cs

/-- Whether a text may be written as a block. -/
def allowsLiteral (cs : List Char) : Bool :=
  cs.all isPrintable && !hasPair (· == ' ') isBreak cs && cs.getLast? != some ' '

/-- How a text is written. -/
def style (s : String) : Style :=
  let cs := s.toList
  if cs.contains '\n' then
    if allowsLiteral cs then .literal else .double
  else if !readsAsOther s && allowsPlain cs then .plain
  else if allowsSingle cs then .single
  else .double

/-- So many spaces. -/
def spaces (n : Nat) : List Char := List.replicate n ' '

/-- The letter that stands for a character behind a backslash. -/
def escapeLetter? (c : Char) : Option Char :=
  [('\x00', '0'), ('\x07', 'a'), ('\x08', 'b'), ('\t', 't'), ('\n', 'n'), ('\x0b', 'v'),
    ('\x0c', 'f'), ('\r', 'r'), ('\x1b', 'e'), ('"', '"'), ('\\', '\\'), ('\u0085', 'N'),
    ('\u2028', 'L'), ('\u2029', 'P')].lookup c

/-- A character between double quotes. -/
def doubleChar (c : Char) : List Char :=
  if isPrintable c && !isBreak c && c != '"' && c != '\\' then [c]
  else
    match escapeLetter? c with
    | some letter => ['\\', letter]
    | none =>
      let n := c.toNat
      let hex :=
        if n ≤ 0xFF then "x" ++ Text.hexText 2 n
        else if n ≤ 0xFFFF then "u" ++ Text.hexText 4 n
        else "U" ++ Text.hexText 8 n
      '\\' :: hex.toList

/-- The text between single quotes; a line of it starts in the column `indent`. -/
def singleBody (indent : Nat) : Bool → List Char → List Char
  | fresh, [] => if fresh then spaces indent else []
  | fresh, c :: cs =>
    if isBreak c then c :: singleBody indent true cs
    else
      let margin := if fresh && c != ' ' then spaces indent else []
      let shown := if c == '\'' then ['\'', '\''] else [c]
      margin ++ shown ++ singleBody indent (fresh && c == ' ') cs

/-- The lines of a block; each that is not empty starts in the column `indent`. -/
def literalBody (indent : Nat) : Bool → List Char → List Char
  | _, [] => []
  | fresh, c :: cs =>
    if isBreak c then c :: literalBody indent true cs
    else (if fresh then spaces indent else []) ++ c :: literalBody indent false cs

/-- The indicators of a block: its indentation if the text starts with white space, and what becomes
of the line ends behind it. -/
def literalMark (cs : List Char) : List Char :=
  let indentMark := if cs.head?.any fun c => c == ' ' || isBreak c then ['2'] else []
  let endMark := match cs.reverse with
    | [] => ['-']
    | c :: before =>
      if !isBreak c then ['-']
      else if before.head?.all isBreak then ['+']
      else []
  '|' :: indentMark ++ endMark

/-- A text in its style; its further lines start in the column `indent`. -/
def text (indent : Nat) (s : String) : String :=
  let cs := s.toList
  match style s with
  | .plain => s
  | .single => String.ofList ('\'' :: singleBody indent false cs ++ ['\''])
  | .double => String.ofList ('"' :: cs.flatMap doubleChar ++ ['"'])
  | .literal => String.ofList (literalMark cs ++ '\n' :: literalBody indent true cs)

/-- Whether a key stands on the line of its value: it has one line and 128 bytes at most. -/
def isSimpleKey (s : String) : Bool :=
  !s.toList.any isBreak && s.utf8ByteSize ≤ 128

/-- Ends a line, unless a block has ended it. -/
def endLine (s : String) : String :=
  if s.toList.getLast? == some '\n' then s else s ++ "\n"

/-- The margin of a line that starts in a column. -/
def margin (indent : Nat) : String := String.ofList (spaces indent)

/-- A key: a scalar, or nothing where a collection stands as a key. -/
def keyText : Node → String
  | .scalar _ _ text => text
  | _ => ""

/-- A scalar as it is written. -/
def scalarText (indent : Nat) (isPlain : Bool) (s : String) : String :=
  if isPlain then s else text indent s

mutual

/-- A node behind a key and a colon, whose mapping is indented by `indent`. -/
def afterKey (indent : Nat) : Node → String
  | .absent | .excess => "\n"
  | .scalar _ isPlain s => endLine (" " ++ scalarText (indent + 2) isPlain s)
  | .sequence _ [] => " []\n"
  | .sequence _ items => "\n" ++ itemLines indent true items
  | .mapping _ [] => " \x7b\x7d\n"
  | .mapping _ entries => "\n" ++ entryLines (indent + 2) true entries

/-- A node behind a mark of one column that starts in the column `indent`. -/
def afterMark (indent : Nat) : Node → String
  | .absent | .excess => "\n"
  | .scalar _ isPlain s => endLine (" " ++ scalarText (indent + 2) isPlain s)
  | .sequence _ [] => " []\n"
  | .sequence _ items => " " ++ itemLines (indent + 2) false items
  | .mapping _ [] => " \x7b\x7d\n"
  | .mapping _ entries => " " ++ entryLines (indent + 2) false entries

/-- The items of a sequence, the first one with its margin or without. -/
def itemLines (indent : Nat) (hasMargin : Bool) : List Node → String
  | [] => ""
  | n :: ns =>
    (if hasMargin then margin indent else "") ++ "-" ++ afterMark indent n ++
      itemLines indent true ns

/-- The entries of a mapping, the first one with its margin or without. -/
def entryLines (indent : Nat) (hasMargin : Bool) : List (Node × Node) → String
  | [] => ""
  | (k, v) :: es =>
    let start := if hasMargin then margin indent else ""
    let key := keyText k
    let entry :=
      if isSimpleKey key then start ++ text (indent + 2) key ++ ":" ++ afterKey indent v
      else
        start ++ "?" ++ endLine (" " ++ text (indent + 2) key) ++
          margin indent ++ ":" ++ afterMark indent v
    entry ++ entryLines indent true es

end

end Printer

/-- A node as a document. -/
def Node.render : Node → String
  | .absent | .excess => "\n"
  | .scalar _ isPlain s => Printer.endLine (Printer.scalarText 2 isPlain s)
  | .sequence _ [] => "[]\n"
  | .sequence _ items => Printer.itemLines 0 true items
  | .mapping _ [] => "\x7b\x7d\n"
  | .mapping _ entries => Printer.entryLines 0 true entries

end LocalTopology.Yaml
