import LocalTopology.Runner.Basic
import LocalTopology.Yaml.Read

/-!
# Reading what a kind decides

A mapping or sequence whose shape depends on its kind is first taken in as a whole, its kind set
aside, and then read again as that kind. The second reading knows no places, and a number, a truth
value or nothing does not do for a text.
-/

namespace LocalTopology.Document

open Yaml

/-- The kind of a node and the rest of its content. -/
structure Kinded where
  kind : String
  content : Value

/-- Reads the name of a kind. -/
def readKind (kinds : List String) : Reader String := fun p n =>
  locate p <| do
    let name ← readText "variant identifier" p n
    if kinds.contains name then .ok name else fail (.unknownVariant name kinds)

/-- Sets the kind apart from the other entries of a mapping. -/
def splitEntries (kinds : List String) (p : Place) :
    Option String → List (Node × Node) → Result (Option String × List (Value × Value))
  | kind, [] => .ok (kind, [])
  | kind, (k, v) :: es => do
    match ← readValue .buffer ⟨p.steps, p.depth + 1⟩ k with
    | .text "type" =>
      if kind.isSome then fail (.duplicateField "type")
      else
        let name ← readKind kinds (p.down (stepOf k)) v
        splitEntries kinds p (some name) es
    | key =>
      let value ← readValue .buffer (p.down (stepOf k)) v
      let (kind, entries) ← splitEntries kinds p kind es
      return (kind, (key, value) :: entries)

/-- Takes in a node whose shape depends on its kind. -/
def readKinded (expected : String) (kinds : List String) : Reader Kinded := fun p n =>
  locate p <|
    if (ownTag? n.tag?).isSome then fail (.unexpected .tagged expected)
    else match n with
      | .absent => fail (.unexpected .nothing expected)
      | .excess => mismatch expected n
      | .scalar .. => mismatch expected n
      | .sequence _ items => do
        checkDepth p
        match items with
        | [] => fail (.missingField "type")
        | first :: rest =>
          let kind ← readKind kinds (p.down (.item 0)) first
          let values ← readValueItems .buffer p 1 rest
          return ⟨kind, .sequence values⟩
      | .mapping _ entries => do
        checkDepth p
        match ← splitEntries kinds p none entries with
        | (some kind, entries) => return ⟨kind, .mapping entries⟩
        | (none, _) => fail (.missingField "type")

/-- A reader of values that were taken in before. -/
abbrev Rereader (α : Type) := Value → Result α

/-- The fault of a value that is not of the expected kind. -/
def unfit {α : Type} (v : Value) (expected : String) : Result α :=
  fail (.unexpected (.value v) expected)

/-- A text. -/
def text : Rereader String
  | .text s => .ok s
  | v => unfit v "a string"

/-- A port number. -/
def port : Rereader Port
  | .integer n =>
    if 0 ≤ n ∧ n < 65536 then .ok (UInt16.ofNat n.toNat)
    else fail (.refused (.value (.integer n)) "u16")
  | v => unfit v "u16"

/-- Nothing, or what another reader reads. -/
def option {α : Type} (read : Rereader α) : Rereader (Option α)
  | .null => .ok none
  | v => some <$> read v

/-- A list. -/
def list {α : Type} (read : Rereader α) : Rereader (List α)
  | .sequence items => items.mapM read
  | v => unfit v "a sequence"

/-- A mapping from texts. -/
def pairs {α : Type} (read : Rereader α) : Rereader (List (String × α))
  | .mapping entries => entries.mapM fun (k, v) => do return (← text k, ← read v)
  | v => unfit v "a map"

/-- The field that a key names, by its name or its index; no field has the empty name. -/
def fieldName (fields : List String) : Rereader String
  | .text s => .ok s
  | .integer n =>
    if 0 ≤ n then .ok (fields.getD n.toNat "") else unfit (.integer n) "field identifier"
  | v => unfit v "field identifier"

/-- Reads the fields of a sequence by their positions. -/
def positional {σ : Type} (expected : String) (fields required : List String)
    (step : σ → String → Value → Result σ) : Nat → σ → List String → List Value → Result σ
  | index, s, [], items =>
    if items.isEmpty then .ok s
    else fail (.wrongLength (index + items.length)
      (if index = 1 then "1 element in sequence" else s!"{index} elements in sequence"))
  | index, s, name :: names, [] =>
    if required.contains name then
      let count := match fields.length with
        | 1 => "1 element"
        | n => s!"{n} elements"
      fail (.wrongLength index (expected ++ " with " ++ count))
    else positional expected fields required step index s names []
  | index, s, name :: names, v :: vs => do
    let s ← step s name v
    positional expected fields required step (index + 1) s names vs

/-- A value with a fixed set of fields, taken up one after the other from a start. -/
def record {σ : Type} (expected : String) (fields required : List String) (start : σ)
    (step : σ → String → Value → Result σ) : Rereader σ
  | .mapping entries => do
    let (seen, s) ← readFields fields (fieldName fields) (fun s name _ v => step s name v)
      [] start entries
    requireFields required seen
    return s
  | .sequence items => positional expected fields required step 0 start fields items
  | v => unfit v expected

end LocalTopology.Document
