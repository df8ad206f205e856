import LocalTopology.Yaml.Node
import LocalTopology.Yaml.Token

/-!
# Trees with anchors

The tokens of a document form a tree in which anchors name nodes and aliases stand for named ones.
An anchor receives as its number how many names are known where it stands, so a name that is given
again may share its number with the next new name; an alias stands for the last node of its number.
A tree becomes a node by putting the named nodes in the place of their aliases. A node that contains
an alias of itself has no end, and is unfolded to a depth that no reader of it reaches. An alias
that stands for more aliases than the size of the document allows is not unfolded.
-/

namespace LocalTopology.Yaml

/-- A part of a document with its anchor number. -/
inductive Tree
  | alias (number : Nat)
  | scalar (anchor : Option Nat) (tag : Option String) (isPlain : Bool) (text : String)
  | sequence (anchor : Option Nat) (tag : Option String) (items : List Tree)
  | mapping (anchor : Option Nat) (tag : Option String) (entries : List (Tree × Tree))
  deriving Repr, Inhabited

namespace Tree

/-- A node without content. -/
def empty : Tree := .scalar none none true ""

/-- What is left to read of a document: its tokens, the shorthands of its tags, and the anchors
known so far, with the number last given to each name. -/
structure Source where
  tokens : List Token
  shorthands : List (String × String)
  anchors : List (String × Nat) := []

namespace Source

/-- The next token. -/
def head? (s : Source) : Option Token := s.tokens.head?

/-- The source behind the next token. -/
def tail (s : Source) : Source := { s with tokens := s.tokens.tail }

/-- Whether the next token is a given one. -/
def isAt (s : Source) (t : Token) : Bool := s.head? == some t

/-- Whether the next token is one of the given ones. -/
def isAtAny (s : Source) (ts : List Token) : Bool := ts.any s.isAt

/-- Gives a number to an anchor. -/
def define (s : Source) (name : String) : Nat × Source :=
  let number := s.anchors.length
  let others := s.anchors.filter (·.1 != name)
  (number, { s with anchors := (name, number) :: others })

/-- The full form of a tag. -/
def tag? (s : Source) (handle suffix : String) : Option String :=
  if handle.isEmpty then some suffix
  else (s.shorthands.lookup handle).map (· ++ suffix)

end Source

/-- The anchor and the tag in front of a node. -/
structure Properties where
  anchor : Option String := none
  tag : Option (String × String) := none

/-- Reads an anchor and a tag, in either order. -/
def properties (s : Source) : Properties × Source :=
  match s.tokens with
  | .anchor a :: .tag h x :: ts => (⟨some a, some (h, x)⟩, { s with tokens := ts })
  | .anchor a :: ts => (⟨some a, none⟩, { s with tokens := ts })
  | .tag h x :: .anchor a :: ts => (⟨some a, some (h, x)⟩, { s with tokens := ts })
  | .tag h x :: ts => (⟨none, some (h, x)⟩, { s with tokens := ts })
  | _ => ({}, s)

/-- Gives a number to the anchor in front of a node, if there is one. -/
def numbered (p : Properties) (s : Source) : Option Nat × Source :=
  match p.anchor with
  | some name => let (n, s) := s.define name; (some n, s)
  | none => (none, s)

mutual

/-- Reads a node: of a block, if `inBlock`, and a sequence without an indentation of its own, if
`atKey`. -/
def node? (inBlock atKey : Bool) : Nat → Source → Option (Tree × Source)
  | 0, _ => none
  | fuel + 1, s =>
    match s.head? with
    | some (.alias name) => (s.anchors.lookup name).map fun n => (.alias n, s.tail)
    | _ => do
      let (p, s) := properties s
      let tag ← match p.tag with
        | none => some none
        | some (handle, suffix) => (s.tag? handle suffix).map some
      if atKey && s.isAt .entry then
        let (anchor, s) := numbered p s
        let (items, s) ← looseEntries? fuel s
        return (.sequence anchor tag items, s)
      else
        match s.head? with
        | some (.scalar isPlain text) =>
          let (anchor, s) := numbered p s
          let tag := tag.filter (· != "!")
          return (.scalar anchor tag isPlain text, s.tail)
        | some .flowSequence =>
          let (anchor, s) := numbered p s
          let (items, s) ← flowEntries? true fuel s.tail
          return (.sequence anchor tag items, s)
        | some .flowMapping =>
          let (anchor, s) := numbered p s
          let (entries, s) ← flowPairs? true fuel s.tail
          return (.mapping anchor tag entries, s)
        | next =>
          if inBlock && next == some .blockSequence then
            let (anchor, s) := numbered p s
            let (items, s) ← blockEntries? fuel s.tail
            return (.sequence anchor tag items, s)
          else if inBlock && next == some .blockMapping then
            let (anchor, s) := numbered p s
            let (entries, s) ← blockPairs? fuel s.tail
            return (.mapping anchor tag entries, s)
          else if p.anchor.isSome || p.tag.isSome then
            let (anchor, s) := numbered p s
            return (.scalar anchor tag true "", s)
          else none

/-- Reads a node, or none in front of one of the given tokens. -/
def nodeUnless? (inBlock atKey : Bool) (stops : List Token) : Nat → Source → Option (Tree × Source)
  | 0, _ => none
  | fuel + 1, s => if s.isAtAny stops then some (empty, s) else node? inBlock atKey fuel s

/-- Reads the entries of a block sequence and its end. -/
def blockEntries? : Nat → Source → Option (List Tree × Source)
  | 0, _ => none
  | fuel + 1, s =>
    match s.head? with
    | some .entry => do
      let (item, s) ← nodeUnless? true false [.entry, .blockEnd] fuel s.tail
      let (items, s) ← blockEntries? fuel s
      return (item :: items, s)
    | some .blockEnd => some ([], s.tail)
    | _ => none

/-- Reads the entries of a sequence that has no indentation of its own. -/
def looseEntries? : Nat → Source → Option (List Tree × Source)
  | 0, _ => none
  | fuel + 1, s =>
    match s.head? with
    | some .entry => do
      let (item, s) ← nodeUnless? true false [.entry, .key, .value, .blockEnd] fuel s.tail
      let (items, s) ← looseEntries? fuel s
      return (item :: items, s)
    | _ => some ([], s)

/-- Reads the entries of a block mapping and its end. -/
def blockPairs? : Nat → Source → Option (List (Tree × Tree) × Source)
  | 0, _ => none
  | fuel + 1, s =>
    match s.head? with
    | some .key => do
      let (key, s) ← nodeUnless? true true [.key, .value, .blockEnd] fuel s.tail
      blockValue? key fuel s
    | some .blockEnd => some ([], s.tail)
    | _ => none

/-- Reads the value of a key in a block mapping and the entries after it. -/
def blockValue? (key : Tree) : Nat → Source → Option (List (Tree × Tree) × Source)
  | 0, _ => none
  | fuel + 1, s => do
    let (value, s) ← if s.isAt .value then
        nodeUnless? true true [.key, .value, .blockEnd] fuel s.tail
      else some (empty, s)
    let (entries, s) ← blockPairs? fuel s
    return ((key, value) :: entries, s)

/-- Reads the entries of a flow sequence and its end. An entry with a colon or a question mark is a
mapping of one entry; if nothing stands between the two marks, the second is passed over. -/
def flowEntries? (isFirst : Bool) : Nat → Source → Option (List Tree × Source)
  | 0, _ => none
  | fuel + 1, s => do
    if s.isAt .flowSequenceEnd then return ([], s.tail)
    if !isFirst && !s.isAt .comma then none
    let s := if isFirst then s else s.tail
    match s.head? with
    | some .flowSequenceEnd => return ([], s.tail)
    | some .key =>
      let s := s.tail
      let (key, s) ← if s.isAtAny [.value, .comma, .flowSequenceEnd] then some (empty, s.tail)
        else node? false false fuel s
      let (value, s) ← if s.isAt .value then
          nodeUnless? false false [.comma, .flowSequenceEnd] fuel s.tail
        else some (empty, s)
      let (items, s) ← flowEntries? false fuel s
      return (.mapping none none [(key, value)] :: items, s)
    | _ =>
      let (item, s) ← node? false false fuel s
      let (items, s) ← flowEntries? false fuel s
      return (item :: items, s)

/-- Reads the entries of a flow mapping and its end. -/
def flowPairs? (isFirst : Bool) : Nat → Source → Option (List (Tree × Tree) × Source)
  | 0, _ => none
  | fuel + 1, s => do
    if s.isAt .flowMappingEnd then return ([], s.tail)
    if !isFirst && !s.isAt .comma then none
    let s := if isFirst then s else s.tail
    match s.head? with
    | some .flowMappingEnd => return ([], s.tail)
    | some .key =>
      let (key, s) ← nodeUnless? false false [.value, .comma, .flowMappingEnd] fuel s.tail
      let (value, s) ← if s.isAt .value then
          nodeUnless? false false [.comma, .flowMappingEnd] fuel s.tail
        else some (empty, s)
      let (entries, s) ← flowPairs? false fuel s
      return ((key, value) :: entries, s)
    | _ =>
      let (key, s) ← node? false false fuel s
      let (entries, s) ← flowPairs? false fuel s
      return ((key, empty) :: entries, s)

end

/-- The directives in front of a document: at most one version, 1.1 or 1.2, and a full form for
every shorthand, none of them twice. -/
def directives? : Bool → List (String × String) → List Token →
    Option (List (String × String) × List Token)
  | hasVersion, shorthands, .version major minor :: ts =>
    if hasVersion || major != 1 || !(minor == 1 || minor == 2) then none
    else directives? true shorthands ts
  | hasVersion, shorthands, .shorthand handle full :: ts =>
    if (shorthands.lookup handle).isSome then none
    else directives? hasVersion (shorthands ++ [(handle, full)]) ts
  | _, shorthands, ts => some (shorthands, ts)

/-- The shorthands that every document knows, unless it gives them another full form. -/
def commonShorthands : List (String × String) :=
  [("!", "!"), ("!!", "tag:yaml.org,2002:")]

/-- Reads the content of a document. -/
def content? (shorthands : List (String × String)) (isMarked : Bool) (ts : List Token) :
    Option (Tree × List Token) :=
  let source : Source := { tokens := ts, shorthands := shorthands ++ commonShorthands }
  let isEmpty := match ts.head? with
    | none | some .documentStart | some .documentEnd | some (.version ..)
    | some (.shorthand ..) => true
    | _ => false
  if isMarked && isEmpty then some (empty, ts)
  else (node? true false (3 * ts.length + 3) source).map fun (t, s) => (t, s.tokens)

/-- The only document of a list of tokens, or `none` inside if there is none; more than one is
refused. -/
def ofTokens? (ts : List Token) : Option (Option Tree) :=
  let read (ts : List Token) (isMarked : Bool) (shorthands : List (String × String)) :
      Option (Option Tree) :=
    match content? shorthands isMarked ts with
    | none => none
    | some (t, rest) => if rest.all (· == .documentEnd) then some (some t) else none
  match ts with
  | [] => some none
  | .documentStart :: rest => read rest true []
  | .version .. :: _ | .shorthand .. :: _ =>
    match directives? false [] ts with
    | some (shorthands, .documentStart :: rest) => read rest true shorthands
    | _ => none
  | _ => read ts false []

mutual

/-- The nodes with a number, in the order in which they start. -/
def definitions : Tree → List (Nat × Tree)
  | .alias _ => []
  | t@(.scalar anchor _ _ _) => (anchor.map (·, t)).toList
  | t@(.sequence anchor _ items) => (anchor.map (·, t)).toList ++ itemDefinitions items
  | t@(.mapping anchor _ entries) => (anchor.map (·, t)).toList ++ entryDefinitions entries

/-- The nodes with a number among the items of a sequence. -/
def itemDefinitions : List Tree → List (Nat × Tree)
  | [] => []
  | t :: ts => definitions t ++ itemDefinitions ts

/-- The nodes with a number among the entries of a mapping. -/
def entryDefinitions : List (Tree × Tree) → List (Nat × Tree)
  | [] => []
  | (k, v) :: es => definitions k ++ definitions v ++ entryDefinitions es

end

mutual

/-- The node of a tree, given the nodes that its aliases stand for. -/
def toNode (named : Nat → Node) : Tree → Node
  | .alias n => named n
  | .scalar _ tag isPlain text => .scalar tag isPlain text
  | .sequence _ tag items => .sequence tag (toNodes named items)
  | .mapping _ tag entries => .mapping tag (toEntries named entries)

/-- The nodes of the items of a sequence. -/
def toNodes (named : Nat → Node) : List Tree → List Node
  | [] => []
  | t :: ts => toNode named t :: toNodes named ts

/-- The nodes of the entries of a mapping. -/
def toEntries (named : Nat → Node) : List (Tree × Tree) → List (Node × Node)
  | [] => []
  | (k, v) :: es => (toNode named k, toNode named v) :: toEntries named es

end

/-- The node of a number, unless it is one that is not to be read. -/
def nodeAt (excess : List Nat) (named : List (Nat × Node)) (n : Nat) : Node :=
  if excess.contains n then .excess else (named.lookup n).getD .absent

/-- The nodes with numbers, unfolded to a depth; at its bottom they are absent. -/
def unfold (excess : List Nat) (defs : List (Nat × Tree)) : Nat → List (Nat × Node)
  | 0 => []
  | depth + 1 =>
    let below := unfold excess defs depth
    defs.map fun (n, t) => (n, t.toNode (nodeAt excess below))

mutual

/-- The size of a tree: collections count at their start and at their end. -/
def size : Tree → Nat
  | .alias _ => 1
  | .scalar .. => 1
  | .sequence _ _ items => 2 + itemsSize items
  | .mapping _ _ entries => 2 + entriesSize entries

/-- The size of the items of a sequence. -/
def itemsSize : List Tree → Nat
  | [] => 0
  | t :: ts => size t + itemsSize ts

/-- The size of the entries of a mapping. -/
def entriesSize : List (Tree × Tree) → Nat
  | [] => 0
  | (k, v) :: es => size k + size v + entriesSize es

end

mutual

/-- How many aliases are followed in reading a tree, given how many are in reading the nodes that
they stand for. -/
def follows (known : Nat → Nat) : Tree → Nat
  | .alias n => 1 + known n
  | .scalar .. => 0
  | .sequence _ _ items => itemsFollow known items
  | .mapping _ _ entries => entriesFollow known entries

/-- How many aliases are followed in reading the items of a sequence. -/
def itemsFollow (known : Nat → Nat) : List Tree → Nat
  | [] => 0
  | t :: ts => follows known t + itemsFollow known ts

/-- How many aliases are followed in reading the entries of a mapping. -/
def entriesFollow (known : Nat → Nat) : List (Tree × Tree) → Nat
  | [] => 0
  | (k, v) :: es => follows known k + follows known v + entriesFollow known es

end

/-- How many aliases are followed in reading the nodes with numbers, to a depth. -/
def followCounts (defs : List (Nat × Tree)) : Nat → List (Nat × Nat)
  | 0 => []
  | depth + 1 =>
    let below := followCounts defs depth
    defs.map fun (n, t) => (n, t.follows fun n => (below.lookup n).getD 0)

/-- How often aliases may be followed for each unit of the size of a document. -/
def repetitionLimit : Nat := 100

/-- The numbers of nodes that have an end but cannot be read, as too many aliases are followed. -/
def excessive (t : Tree) (defs : List (Nat × Tree)) : List Nat :=
  let counts := followCounts defs (defs.length + 1)
  let later := followCounts defs (defs.length + 2)
  counts.filterMap fun (n, count) =>
    if later.lookup n == some count && repetitionLimit * t.size < 1 + count then some n else none

/-- How deep nodes may nest for a reader to accept them. -/
def depthLimit : Nat := 128

/-- The node of a tree, with the last node of its number in the place of every alias. -/
def resolve (t : Tree) : Node :=
  let defs := (definitions t).reverse
  let excess := if defs.isEmpty then [] else t.excessive defs
  let named := if defs.isEmpty then [] else unfold excess defs (defs.length + depthLimit + 2)
  t.toNode fun n => nodeAt excess named n

end Tree

/-- The node of the only document in a text, if the text is a stream of one document at most. -/
def Node.ofChars? (cs : List Char) : Option Node := do
  let tree? ← Tree.ofTokens? (← Token.scan? cs)
  return match tree? with
    | some t => t.resolve
    | none => .absent

/-- The node of the only document in a stream of bytes. -/
def Node.ofBytes? (bytes : ByteArray) : Option Node :=
  (String.fromUTF8? bytes).bind fun s => Node.ofChars? s.toList

end LocalTopology.Yaml
