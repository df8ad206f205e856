/-!
# Cutting text

Text is cut at the first or the last occurrence of a character, and relieved of the slashes at
either end.
-/

namespace LocalTopology.Text

/-- The text before and after the first occurrence of a character. -/
def cutFirst? (sep : Char) : List Char → Option (List Char × List Char)
  | [] => none
  | c :: cs =>
    if c = sep then some ([], cs)
    else (cutFirst? sep cs).map fun (before, after) => (c :: before, after)

/-- The text before and after the last occurrence of a character. -/
def cutLast? (sep : Char) : List Char → Option (List Char × List Char)
  | [] => none
  | c :: cs =>
    match cutLast? sep cs with
    | some (before, after) => some (c :: before, after)
    | none => if c = sep then some ([], cs) else none

/-- Whether the text begins with a known one. -/
def startsWith (known s : String) : Bool :=
  known.toList.isPrefixOf s.toList

/-- The text without the slashes at its end. -/
def trimEndSlashes (s : String) : String :=
  String.ofList (s.toList.reverse.dropWhile (· = '/')).reverse

/-- The text without the slashes at its start. -/
def trimStartSlashes (s : String) : String :=
  String.ofList (s.toList.dropWhile (· = '/'))

end LocalTopology.Text
