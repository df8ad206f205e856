import LocalTopology.Text.Escaped
import LocalTopology.Yaml.Plain

/-!
# Values of any kind

What a node stands for when its reader does not expect anything in particular, how a real number is
written, and how a value is shown in a message.
-/

namespace LocalTopology.Yaml

open LocalTopology.Decimal

/-- What a node of any kind stands for. -/
inductive Value
  | null
  | bool (value : Bool)
  | integer (value : Int)
  | real (value : Binary64)
  | text (value : String)
  | sequence (items : List Value)
  | mapping (entries : List (Value × Value))
  | tagged (tag : String) (value : Value)
  deriving Repr, Inhabited

/-- Written numbers are positional up to sixteen digits before the point and four zeros behind it.
-/
def numberLayout : Layout := ⟨-5, 16, ".inf", ".nan"⟩

/-- Numbers in messages are always positional. -/
def messageLayout : Layout := ⟨-400, 400, "inf", "NaN"⟩

/-- A truth value as it is written. -/
def boolText (b : Bool) : String := if b then "true" else "false"

namespace Value

/-- The value of a scalar. -/
def ofAtom : Atom → Value
  | .null => null
  | .bool b => bool b
  | .integer n => integer n
  | .real x => real x
  | .text s => text s

/-- The text of a scalar value: a text is itself and nothing is the empty text. -/
def scalarText? : Value → Option String
  | null => some ""
  | bool b => some (boolText b)
  | integer n => some (toString n)
  | real x => some (numberLayout.text x)
  | text s => some s
  | _ => none

mutual

/-- The value with the name of its kind. -/
def describe : Value → String
  | null => "Null"
  | bool b => "Bool(" ++ boolText b ++ ")"
  | integer n => "Number(" ++ toString n ++ ")"
  | real x => "Number(" ++ numberLayout.text x ++ ")"
  | text s => "String(" ++ Text.escaped s ++ ")"
  | sequence items => "Sequence [" ++ ", ".intercalate (describeAll items) ++ "]"
  | mapping entries => "Mapping \x7b" ++ ", ".intercalate (describeEntries entries) ++ "\x7d"
  | tagged tag value => "TaggedValue \x7b tag: !" ++ tag ++ ", value: " ++ describe value ++ " \x7d"

/-- The items of a sequence, each with the name of its kind. -/
def describeAll : List Value → List String
  | [] => []
  | v :: vs => describe v :: describeAll vs

/-- The entries of a mapping; keys that are scalars are shown without the name of their kind. -/
def describeEntries : List (Value × Value) → List String
  | [] => []
  | (k, v) :: es =>
    let key := match k with
      | bool b => boolText b
      | integer n => toString n
      | real x => numberLayout.text x
      | text s => Text.escaped s
      | other => describe other
    (key ++ ": " ++ describe v) :: describeEntries es

end

/-- Whether two values are the same; values of one kind and content are described alike. -/
def same (a b : Value) : Bool :=
  a.describe == b.describe

end Value

end LocalTopology.Yaml
