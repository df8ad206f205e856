/-!
# Patterns

A pattern is a text in which a star stands for any text and a question mark for any character.
-/

namespace LocalTopology.Shell

/-- A part of a pattern. -/
inductive PatternPart
  | anything
  | anyCharacter
  | character (c : Char)
  deriving DecidableEq, Inhabited

/-- The part that a character without quotes stands for. -/
def PatternPart.ofChar (c : Char) : PatternPart :=
  if c = '*' then anything else if c = '?' then anyCharacter else character c

/-- Whether what is left of a text matches after some of its beginning is passed over. -/
def someSuffix (p : List Char → Bool) : List Char → Bool
  | [] => p []
  | c :: cs => p (c :: cs) || someSuffix p cs

/-- Whether a text matches a pattern. -/
def isMatch : List PatternPart → List Char → Bool
  | [], cs => cs.isEmpty
  | .anything :: parts, cs => someSuffix (isMatch parts) cs
  | .anyCharacter :: parts, _ :: cs => isMatch parts cs
  | .character c :: parts, d :: cs => c == d && isMatch parts cs
  | _, [] => false

end LocalTopology.Shell
