/-!
# Words of a command line

A word of letters, digits and a few signs is written as it is. Any other is written between single
quotes, from which quotes and exclamation marks are taken out and put behind a backslash. Splitting
reads a command line by the rules of a shell: blanks separate words, what stands between single
quotes and what follows a backslash stands for itself.
-/

namespace LocalTopology.Shell

/-- A character that needs no quotes. -/
def isSafe (c : Char) : Bool :=
  c.isAlphanum || "-_=/,.+".contains c

/-- A character of a quoted word. -/
def quoteChar (c : Char) : List Char :=
  if c = '\'' ∨ c = '!' then ['\'', '\\', c, '\''] else [c]

/-- A word as it is written. -/
def quoteWord (cs : List Char) : List Char :=
  if !cs.isEmpty && cs.all isSafe then cs else '\'' :: cs.flatMap quoteChar ++ ['\'']

/-- Words as they are written, with a space between each two of them. -/
def commandLine (words : List String) : String :=
  String.ofList ([' '].intercalate (words.map fun w => quoteWord w.toList))

/-- A space, a tab or a line feed. -/
def isBlank (c : Char) : Bool :=
  c == ' ' || c == '\t' || c == '\n'

/-- The words of a command line: `word` is the current one, if there is one, and `quoted` tells
whether the text is between single quotes. Nothing is returned for an open quote or a backslash at
the end. -/
def split? (quoted : Bool) (word : Option (List Char)) : List Char → Option (List (List Char))
  | [] => if quoted then none else some word.toList
  | '\'' :: cs => split? (!quoted) (some (word.getD [])) cs
  | c :: cs =>
    if quoted then split? true (some (word.getD [] ++ [c])) cs
    else if c = '\\' then
      match cs with
      | [] => none
      | d :: ds => split? false (some (word.getD [] ++ [d])) ds
    else if isBlank c then
      match word with
      | some w => (split? false none cs).map (w :: ·)
      | none => split? false none cs
    else split? false (some (word.getD [] ++ [c])) cs

/-- The words of a command line. -/
def words? (line : String) : Option (List String) :=
  (split? false none line.toList).map (·.map String.ofList)

end LocalTopology.Shell
