/-!
# Patterns of text

A pattern describes whole texts by their parts, one behind the other. It is matched by what it may
leave of a text: every way to match a beginning of the text gives one rest, and the text matches if
nothing is left in one of them.
-/

namespace LocalTopology.Text

/-- A pattern of text. -/
inductive Pattern
  /-- One character of a class. -/
  | one (p : Char → Bool)
  /-- Any number of characters of a class. -/
  | many (p : Char → Bool)
  /-- One of several fixed texts. -/
  | oneOf (texts : List String)
  /-- A part that may be missing. -/
  | optional (a : Pattern)
  /-- A part and what follows it. -/
  | followedBy (a b : Pattern)

namespace Pattern

/-- What any number of characters of a class may leave of a text. -/
def restsOfMany (p : Char → Bool) : List Char → List (List Char)
  | [] => [[]]
  | c :: cs => (c :: cs) :: if p c then restsOfMany p cs else []

/-- What a pattern may leave of a text that begins with a match. -/
def rests : Pattern → List Char → List (List Char)
  | one p, cs =>
    match cs with
    | c :: rest => if p c then [rest] else []
    | [] => []
  | many p, cs => restsOfMany p cs
  | oneOf texts, cs => texts.filterMap fun t => t.toList.isPrefixOf? cs
  | optional a, cs => cs :: a.rests cs
  | followedBy a b, cs => (a.rests cs).flatMap b.rests

/-- Whether a pattern matches the whole of a text. -/
def isMatch (a : Pattern) (cs : List Char) : Bool :=
  (a.rests cs).any List.isEmpty

end Pattern

end LocalTopology.Text
