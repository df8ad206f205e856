import LocalTopology.Yaml.Value

/-!
# Why a document is not of the expected shape

A fault is a cause and, once it is known, the place in the document: the keys and indices that lead
to the innermost part whose reader met the cause.
-/

namespace LocalTopology.Yaml

/-- What stands where something else was expected. -/
inductive Found
  | value (v : Value)
  | nothing
  | tagged
  | wideInteger (n : Int)
  deriving Repr

namespace Found

/-- Whether an integer lies outside of 64 bits. -/
def isWide (n : Int) : Bool :=
  n < -Int.pow 2 63 || Int.pow 2 64 ≤ n

/-- What is found, in words. -/
def text : Found → String
  | value .null => "unit value"
  | value (.bool b) => "boolean \x60" ++ boolText b ++ "\x60"
  | value (.integer n) => "integer \x60" ++ toString n ++ "\x60"
  | value (.real x) => "floating point \x60" ++ messageLayout.text x ++ "\x60"
  | value (.text s) => "string " ++ Text.escaped s
  | value (.sequence _) => "sequence"
  | value (.mapping _) => "map"
  | value (.tagged ..) => "enum"
  | nothing => "Option value"
  | tagged => "enum"
  | wideInteger n =>
    "integer \x60" ++ toString n ++ "\x60 as " ++ (if 0 ≤ n then "u128" else "i128")

end Found

/-- Why a part of a document is refused. -/
inductive Cause
  | tooDeep
  | tooOften
  | missingValue
  | unexpected (found : Found) (expected : String)
  | refused (found : Found) (expected : String)
  | missingField (name : String)
  | duplicateField (name : String)
  | unknownVariant (name : String) (known : List String)
  | wrongLength (length : Nat) (expected : String)
  | taggedInput
  | duplicateEntry (key : Value)
  | notScalar (name : String) (value : Value)
  deriving Repr

namespace Cause

/-- Names in quotes, as a choice. -/
def choice (names : List String) : String :=
  let quoted := names.map fun n => "\x60" ++ n ++ "\x60"
  match quoted with
  | [] => "there are no variants"
  | [a] => "expected " ++ a
  | [a, b] => "expected " ++ a ++ " or " ++ b
  | more => "expected one of " ++ ", ".intercalate more

/-- The cause in words. -/
def text : Cause → String
  | tooDeep => "recursion limit exceeded"
  | tooOften => "repetition limit exceeded"
  | missingValue => "EOF while parsing a value"
  | unexpected found expected => s!"invalid type: {found.text}, expected {expected}"
  | refused found expected => s!"invalid value: {found.text}, expected {expected}"
  | missingField name => "missing field \x60" ++ name ++ "\x60"
  | duplicateField name => "duplicate field \x60" ++ name ++ "\x60"
  | unknownVariant name known => "unknown variant \x60" ++ name ++ "\x60, " ++ choice known
  | wrongLength length expected => s!"invalid length {length}, expected {expected}"
  | taggedInput => "untagged and internally tagged enums do not support enum input"
  | duplicateEntry key =>
    "duplicate entry " ++ match key with
      | .null => "with null key"
      | .bool b => "with key \x60" ++ boolText b ++ "\x60"
      | .integer n => "with key " ++ toString n
      | .real x => "with key " ++ numberLayout.text x
      | .text s => "with key " ++ Text.escaped s
      | _ => "in YAML map"
  | notScalar name value =>
    s!"environment variable '{name}' must be a scalar, got {value.describe}"

/-- Whether the cause is told together with its place. -/
def hasPlace : Cause → Bool
  | tooDeep | tooOften | missingValue => false
  | _ => true

end Cause

/-- A step from a node to a part of it. -/
inductive Step
  | key (name : String)
  | item (index : Nat)
  | unnamed
  deriving DecidableEq, Repr

/-- Where a reader stands in a document: the steps that led there, the last one first, and the
number of collections around it. -/
structure Place where
  steps : List Step := []
  depth : Nat := 0
  deriving DecidableEq, Repr

namespace Place

/-- The root of a document. -/
def root : Place := {}

/-- A part of the collection at a place. -/
def down (p : Place) (s : Step) : Place :=
  ⟨s :: p.steps, p.depth + 1⟩

/-- The path to the last of some steps, the root being a point. -/
def pathText : List Step → String
  | [] => "."
  | .item index :: outer => pathText outer ++ "[" ++ toString index ++ "]"
  | .key name :: outer =>
    (if outer.isEmpty then "" else pathText outer ++ ".") ++ name
  | .unnamed :: outer => (if outer.isEmpty then "" else pathText outer ++ ".") ++ "?"

end Place

/-- A cause and, once it is known, its place. -/
structure Fault where
  cause : Cause
  place : Option Place := none
  deriving Repr

namespace Fault

/-- Gives a place to a fault that has none. -/
def locate (p : Place) (f : Fault) : Fault :=
  if f.place.isNone && f.cause.hasPlace then { f with place := some p } else f

/-- The place and the cause in words; the root is not mentioned. -/
def text (f : Fault) : String :=
  match f.place with
  | some ⟨s :: steps, _⟩ => Place.pathText (s :: steps) ++ ": " ++ f.cause.text
  | _ => f.cause.text

end Fault

/-- The outcome of reading a part of a document. -/
abbrev Result := Except Fault

/-- A fault without a place. -/
def fail {α : Type} (cause : Cause) : Result α :=
  .error { cause }

/-- Gives a place to the faults of a reader that have none. -/
def locate {α : Type} (p : Place) : Result α → Result α
  | .ok a => .ok a
  | .error f => .error (f.locate p)

end LocalTopology.Yaml
