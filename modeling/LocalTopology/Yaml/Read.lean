import LocalTopology.Yaml.Fault
import LocalTopology.Yaml.Node

/-!
# Reading nodes

A reader takes a place and a node and expects a certain shape. Where text is expected any scalar
will do, as it was written. A mapping with a fixed set of fields may hold other keys, whose values
are not looked at (`readFields_unknown`), but no field twice.
-/

namespace LocalTopology.Yaml

/-- A reader of nodes. -/
abbrev Reader (α : Type) := Place → Node → Result α

namespace Scalar

/-- What a scalar stands for. Tags of the common schema decide for themselves. -/
def atom? (tag : Option String) (isPlain : Bool) (text : String) : Result Atom :=
  match tag with
  | some "tag:yaml.org,2002:bool" =>
    match Plain.bool? text with
    | some b => .ok (.bool b)
    | none => fail (.refused (.value (.text text)) "a boolean")
  | some "tag:yaml.org,2002:int" =>
    match Plain.integer? text.toList with
    | some n => .ok (.integer n)
    | none => fail (.refused (.value (.text text)) "an integer")
  | some "tag:yaml.org,2002:float" =>
    match Plain.real? text.toList with
    | some x => .ok (.real x)
    | none => fail (.refused (.value (.text text)) "a float")
  | some "tag:yaml.org,2002:null" =>
    if Plain.nulls.contains text then .ok .null
    else fail (.refused (.value (.text text)) "null")
  | some _ => .ok (.text text)
  | none => .ok (if isPlain then Plain.atom text else .text text)

/-- The value of a scalar for a reader that expects something else or anything. -/
def value? (tag : Option String) (isPlain : Bool) (text expected : String) : Result Value :=
  match atom? tag isPlain text with
  | .error f => .error f
  | .ok (.integer n) =>
    if Found.isWide n then fail (.unexpected (.wideInteger n) expected) else .ok (.integer n)
  | .ok a => .ok (Value.ofAtom a)

end Scalar

/-- The fault of a node that is not of the expected kind. -/
def mismatch {α : Type} (expected : String) : Node → Result α
  | .absent => fail .missingValue
  | .excess => fail .tooOften
  | .scalar tag isPlain text =>
    match Scalar.value? tag isPlain text expected with
    | .error f => .error f
    | .ok v => fail (.unexpected (.value v) expected)
  | .sequence .. => fail (.unexpected (.value (.sequence [])) expected)
  | .mapping .. => fail (.unexpected (.value (.mapping [])) expected)

/-- The name of a tag of the document's own. -/
def ownTag? (tag : Option String) : Option String :=
  match tag with
  | some t =>
    match t.toList with
    | '!' :: name => some (if name.isEmpty then t else String.ofList name)
    | _ => none
  | none => none

/-- How deep nodes may nest. -/
def depthLimit : Nat := 128

/-- Refuses a collection inside too many others. -/
def checkDepth (p : Place) : Result Unit :=
  if p.depth < depthLimit then .ok () else fail .tooDeep

/-- Any scalar, as it was written. -/
def readText (expected : String) : Reader String := fun p n =>
  locate p <| match n with
    | .scalar _ _ text => .ok text
    | n => mismatch expected n

/-- A truth value. -/
def readBool : Reader Bool := fun p n =>
  locate p <| match n with
    | .scalar _ true text =>
      match Plain.bool? text with
      | some b => .ok b
      | none => mismatch "a boolean" n
    | n => mismatch "a boolean" n

/-- A natural number up to a limit. -/
def readNat (limit : Nat) (expected : String) : Reader Nat := fun p n =>
  locate p <| match n with
    | .scalar _ true text =>
      match Plain.integer? text.toList with
      | some i =>
        if i < 0 ∨ Found.isWide i then mismatch expected n
        else if i.toNat ≤ limit then .ok i.toNat
        else fail (.refused (.value (.integer i)) expected)
      | none => mismatch expected n
    | n => mismatch expected n

/-- Nothing, or what another reader reads. -/
def readOption {α : Type} (read : Reader α) : Reader (Option α) := fun p n =>
  match n with
  | .absent => .ok none
  | .scalar (some "tag:yaml.org,2002:null") true text =>
    if Plain.nulls.contains text then .ok none
    else fail (.refused (.value (.text text)) "null")
  | .scalar none true text =>
    if text.isEmpty || Plain.nulls.contains text then .ok none else some <$> read p n
  | n => some <$> read p n

/-- The numbered items of a sequence. -/
def readItems {α : Type} (p : Place) (read : Reader α) : Nat → List Node → Result (List α)
  | _, [] => .ok []
  | index, n :: ns => do
    let a ← read (p.down (.item index)) n
    let as ← readItems p read (index + 1) ns
    return a :: as

/-- Whether a node is nothing at all where a collection is expected. -/
def isEmptyNode : Node → Bool
  | .absent => true
  | .scalar _ true text => text.isEmpty
  | _ => false

/-- A sequence. -/
def readList {α : Type} (read : Reader α) : Reader (List α) := fun p n =>
  locate p <| match n with
    | .sequence _ items => do
      checkDepth p
      readItems p read 0 items
    | n => if isEmptyNode n then .ok [] else mismatch "a sequence" n

/-- The step to the value under a key. -/
def stepOf : Node → Step
  | .scalar _ _ text => .key text
  | _ => .unnamed

/-- The entries of a mapping with arbitrary keys. -/
def readPairs {α : Type} (p : Place) (read : Reader α) :
    List (Node × Node) → Result (List (String × α))
  | [] => .ok []
  | (k, v) :: es => do
    let key ← readText "a string" p k
    let a ← read (p.down (stepOf k)) v
    let as ← readPairs p read es
    return (key, a) :: as

/-- A mapping with arbitrary keys. -/
def readMapping {α : Type} (read : Reader α) : Reader (List (String × α)) := fun p n =>
  locate p <| match n with
    | .mapping _ entries => do
      checkDepth p
      readPairs p read entries
    | n => if isEmptyNode n then .ok [] else mismatch "a map" n

/-- Reads fields one after the other. `nameOf` names the field of a key, and `step` takes up the
value of a field that is known. -/
def readFields {κ ν σ : Type} (known : List String) (nameOf : κ → Result String)
    (step : σ → String → κ → ν → Result σ) :
    List String → σ → List (κ × ν) → Result (List String × σ)
  | seen, s, [] => .ok (seen, s)
  | seen, s, (k, v) :: es => do
    let name ← nameOf k
    if known.contains name then
      if seen.contains name then fail (.duplicateField name)
      else
        let s ← step s name k v
        readFields known nameOf step (name :: seen) s es
    else readFields known nameOf step seen s es

theorem readFields_unknown {κ ν σ : Type} {known : List String} {nameOf : κ → Result String}
    {step : σ → String → κ → ν → Result σ} {k : κ} {v : ν} {name : String}
    (hk : nameOf k = .ok name) (hn : known.contains name = false) (after : List (κ × ν)) :
    ∀ (before : List (κ × ν)) (seen : List String) (s : σ),
      readFields known nameOf step seen s (before ++ (k, v) :: after) =
        readFields known nameOf step seen s (before ++ after)
  | [], seen, s => by
    have hm : name ∉ known := by simpa using hn
    simp [readFields, hk, hm, bind, Except.bind]
  | (k', v') :: before, seen, s => by
    simp only [List.cons_append, readFields]
    congr 1
    funext name'
    split
    · split
      · rfl
      · congr 1
        funext s'
        exact readFields_unknown hk hn after before _ s'
    · exact readFields_unknown hk hn after before seen s

/-- Refuses a mapping without one of its fields. -/
def requireFields (required seen : List String) : Result Unit :=
  match required.find? (!seen.contains ·) with
  | some name => fail (.missingField name)
  | none => .ok ()

/-- A mapping with a fixed set of fields, taken up one after the other from a start. -/
def readRecord {σ : Type} (expected : String) (known required : List String) (start : σ)
    (step : σ → String → Place → Node → Result σ) : Reader σ := fun p n =>
  locate p <| do
    let entries ← match n with
      | .mapping _ entries => do
        checkDepth p
        .ok entries
      | n => if isEmptyNode n then .ok [] else mismatch expected n
    let (seen, s) ← readFields known (readText "field identifier" p)
      (fun s name k v => step s name (p.down (stepOf k)) v) [] start entries
    requireFields required seen
    return s

/-- What a reader of any value does with a node of the document's own tag, and with a key that
occurs twice: the one keeps the first and refuses the second, the other refuses the first and keeps
the second. -/
inductive Purpose
  | final
  | buffer
  deriving DecidableEq

/-- What a reader of any value expects. -/
def Purpose.expected : Purpose → String
  | final => "any YAML value"
  | buffer => "any value"

/-- Refuses an entry whose key is among the earlier ones. -/
def checkNewKey (purpose : Purpose) (key : Value) (earlier : List Value) : Result Unit :=
  if purpose == .final && earlier.any (Value.same key) then fail (.duplicateEntry key) else .ok ()

mutual

/-- Reads a node of any kind. -/
def readValue (purpose : Purpose) (p : Place) : Node → Result Value
  | .absent => .ok .null
  | .excess => fail .tooOften
  | .scalar tag isPlain text =>
    locate p <| match ownTag? tag with
      | some name =>
        if purpose == .buffer then fail .taggedInput
        else Value.tagged name <$> Scalar.value? none isPlain text purpose.expected
      | none => Scalar.value? tag isPlain text purpose.expected
  | .sequence tag items =>
    locate p <| match ownTag? tag with
      | some name =>
        if purpose == .buffer then fail .taggedInput
        else do
          checkDepth p
          let items ← readValueItems purpose p 0 items
          return .tagged name (.sequence items)
      | none => do
        checkDepth p
        Value.sequence <$> readValueItems purpose p 0 items
  | .mapping tag entries =>
    locate p <| match ownTag? tag with
      | some name =>
        if purpose == .buffer then fail .taggedInput
        else do
          checkDepth p
          let entries ← readValueEntries purpose p [] entries
          return .tagged name (.mapping entries)
      | none => do
        checkDepth p
        Value.mapping <$> readValueEntries purpose p [] entries

/-- Reads the items of a sequence of any values. -/
def readValueItems (purpose : Purpose) (p : Place) : Nat → List Node → Result (List Value)
  | _, [] => .ok []
  | index, n :: ns => do
    let v ← readValue purpose (p.down (.item index)) n
    let vs ← readValueItems purpose p (index + 1) ns
    return v :: vs

/-- Reads the entries of a mapping of any values. -/
def readValueEntries (purpose : Purpose) (p : Place) :
    List Value → List (Node × Node) → Result (List (Value × Value))
  | _, [] => .ok []
  | earlier, (k, v) :: es => do
    let key ← readValue purpose ⟨p.steps, p.depth + 1⟩ k
    checkNewKey purpose key earlier
    let value ← readValue purpose (p.down (stepOf k)) v
    let values ← readValueEntries purpose p (key :: earlier) es
    return (key, value) :: values

end

end LocalTopology.Yaml
