import LocalTopology.Document.Buffer

/-!
# Environments in documents

An environment is a mapping from names to scalars of any kind, which are kept as text. A name that
is written twice keeps its first place and its last value before names that differ in case are
joined.
-/

namespace LocalTopology.Document

open Yaml

mutual

/-- Refuses a mapping with a key that occurs twice, anywhere in a value. -/
def checkKeys : Value → Result Unit
  | .sequence items => checkItemKeys items
  | .mapping entries => checkEntryKeys [] entries
  | .tagged _ v => checkKeys v
  | _ => .ok ()

/-- Refuses a key that occurs twice in one of the items of a sequence. -/
def checkItemKeys : List Value → Result Unit
  | [] => .ok ()
  | v :: vs => do
    checkKeys v
    checkItemKeys vs

/-- Refuses a key that occurs among the earlier ones. -/
def checkEntryKeys (earlier : List Value) : List (Value × Value) → Result Unit
  | [] => .ok ()
  | (k, v) :: es => do
    checkKeys k
    checkNewKey .final k earlier
    checkKeys v
    checkEntryKeys (k :: earlier) es

end

/-- Writes values into an environment as text. -/
def environmentOf : Environment → List (String × Value) → Result Environment
  | env, [] => .ok env
  | env, (name, value) :: rest =>
    match value.scalarText? with
    | some text => environmentOf (env.put name text) rest
    | none => fail (.notScalar name value)

/-- Collects the values of an environment by name. -/
def collectEnvironment (values : List (String × Value)) : Result Environment :=
  environmentOf ∅ (OrderedMap.ofList values : Registry Value).entries

/-- An environment that was taken in before. -/
def environment : Rereader Environment := fun v => do
  let values ← pairs (fun v => do checkKeys v; return v) v
  collectEnvironment values

/-- An environment that stands for itself. -/
def readEnvironment : Reader Environment := fun p n => do
  let values ← readMapping (readValue .final) p n
  collectEnvironment values

/-- An environment as a node. -/
def environmentNode (env : Environment) : Node :=
  .ofPairs env.entries

end LocalTopology.Document
