import LocalTopology.Map.Ordered
import LocalTopology.Text.Ascii

/-!
# Environments of runners

Environment variables whose names differ only in the case of ASCII letters are one variable. It
keeps the place where it was first written and takes the spelling and value of the last writing.
-/

namespace LocalTopology

/-- Environment variables in order. -/
abbrev Environment := OrderedMap Text.foldCase String

end LocalTopology
