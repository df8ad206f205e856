/-!
# Nodes

A document is a tree of scalars, sequences and mappings, each with a tag or without. Plain scalars
may stand for numbers and the like; all others are text.
-/

namespace LocalTopology.Yaml

/-- A part of a document. `absent` is the content of a document without any, and `excess` what would
repeat parts of the document too often. -/
inductive Node
  | absent
  | excess
  | scalar (tag : Option String) (isPlain : Bool) (text : String)
  | sequence (tag : Option String) (items : List Node)
  | mapping (tag : Option String) (entries : List (Node × Node))
  deriving Repr, Inhabited

namespace Node

/-- A node that reads as text. -/
def ofText (s : String) : Node := .scalar none false s

/-- A node that reads as a number or the like. -/
def ofPlain (s : String) : Node := .scalar none true s

/-- A sequence of texts. -/
def ofTexts (items : List String) : Node := .sequence none (items.map ofText)

/-- A mapping from texts. -/
def ofEntries (entries : List (String × Node)) : Node :=
  .mapping none (entries.map fun e => (ofText e.1, e.2))

/-- A mapping from texts to texts. -/
def ofPairs (pairs : List (String × String)) : Node :=
  ofEntries (pairs.map fun p => (p.1, ofText p.2))

/-- The tag of a node. -/
def tag? : Node → Option String
  | absent => none
  | excess => none
  | scalar tag _ _ => tag
  | sequence tag _ => tag
  | mapping tag _ => tag

end Node

end LocalTopology.Yaml
