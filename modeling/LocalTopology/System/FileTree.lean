import LocalTopology.Paths.Path
import LocalTopology.System.Fault

/-!
# Files and directories

A tree of files and directories, by the names that lead to them from the root. Actions succeed or
report the fault of the operating system, and a path is walked name by name: every name but the last
must be a directory.
-/

namespace LocalTopology

/-- What stands at a place of the tree. -/
inductive Entry
  | file (content : ByteArray) (isExecutable : Bool)
  | directory
  deriving Inhabited

/-- The names that lead from the root to a place. -/
abbrev Location := List String

/-- Files and directories; the root is always there. -/
structure FileTree where
  entries : List (Location × Entry) := []
  deriving Inhabited

namespace FileTree

/-- What stands at a location. -/
def get? (t : FileTree) (l : Location) : Option Entry :=
  if l.isEmpty then some .directory else t.entries.lookup l

/-- Puts an entry at a location. -/
def set (t : FileTree) (l : Location) (e : Entry) : FileTree :=
  ⟨t.entries.filter (·.1 != l) ++ [(l, e)]⟩

/-- Takes away what stands at a location. -/
def erase (t : FileTree) (l : Location) : FileTree :=
  ⟨t.entries.filter (·.1 != l)⟩

/-- Whether a directory holds anything. -/
def hasChildren (t : FileTree) (l : Location) : Bool :=
  t.entries.any fun e => l.isPrefixOf e.1 && e.1 != l

/-- Walks names from a directory. -/
def walk (t : FileTree) : Location → List String → Except SystemFault Location
  | l, [] => .ok l
  | l, name :: names =>
    match t.get? l with
    | none => .error .notFound
    | some (.file ..) => .error .notDirectory
    | some .directory =>
      if name = ".." then walk t l.dropLast names else walk t (l ++ [name]) names

/-- The names of a path. -/
def names (path : String) : List String :=
  (Path.components path).map String.ofList

/-- Whether a path can only be that of a directory. -/
def meansDirectory (path : String) : Bool :=
  match path.toList.reverse with
  | '/' :: _ => true
  | '.' :: '/' :: _ => true
  | _ => false

/-- Whether a path ends in a name, and not at the root or in a step on the spot or upwards. -/
def endsInName (path : String) : Bool :=
  (names path).getLast?.any (· != "..") && !meansDirectory (Text.trimEndSlashes path)

/-- The location of a path, whether or not anything stands there. -/
def locate (t : FileTree) (path : String) : Except SystemFault Location := do
  let l ← t.walk [] (names path)
  match t.get? l with
  | some (.file ..) => if meansDirectory path then .error .notDirectory else return l
  | _ => return l

/-- What stands at a path. -/
def find? (t : FileTree) (path : String) : Option Entry :=
  match t.locate path with
  | .ok l => t.get? l
  | .error _ => none

/-- Whether a file stands at a path. -/
def isFile (t : FileTree) (path : String) : Bool :=
  match t.find? path with
  | some (.file ..) => true
  | _ => false

/-- Whether anything stands at a path. -/
def isThere (t : FileTree) (path : String) : Bool :=
  (t.find? path).isSome

/-- The names of what a directory holds, in order. -/
def namesIn (t : FileTree) (path : String) : List String :=
  match t.locate path with
  | .error _ => []
  | .ok l =>
    let names := t.entries.filterMap fun (place, _) =>
      if place.length = l.length + 1 && l.isPrefixOf place then place.getLast? else none
    names.mergeSort (· ≤ ·)

/-- The content of a file. -/
def read (t : FileTree) (path : String) : Except SystemFault ByteArray := do
  match t.get? (← t.locate path) with
  | some (.file content _) => return content
  | some .directory => .error .isDirectory
  | none => .error .notFound

/-- Creates the directories of a path that are missing. -/
def makeMissing (t : FileTree) : Location → List String → Except SystemFault FileTree
  | _, [] => .ok t
  | l, name :: names =>
    if name = ".." then makeMissing t l.dropLast names
    else
      let next := l ++ [name]
      match t.get? next with
      | some .directory => makeMissing t next names
      | some (.file ..) => .error (if names.isEmpty then .alreadyThere else .notDirectory)
      | none => makeMissing (t.set next .directory) next names

/-- Creates a directory and those around it that are missing. -/
def makeDirectories (t : FileTree) (path : String) : Except SystemFault FileTree :=
  t.makeMissing [] (names path)

/-- Writes a file; one that is there keeps its mode. -/
def write (t : FileTree) (path : String) (content : ByteArray) : Except SystemFault FileTree := do
  let l ← t.locate path
  match t.get? l with
  | some .directory => .error .isDirectory
  | some (.file _ isExecutable) => return t.set l (.file content isExecutable)
  | none =>
    if meansDirectory path then .error .isDirectory
    else return t.set l (.file content false)

/-- Makes a file executable. -/
def makeExecutable (t : FileTree) (path : String) : Except SystemFault FileTree := do
  let l ← t.locate path
  match t.get? l with
  | some (.file content _) => return t.set l (.file content true)
  | some .directory => return t
  | none => .error .notFound

/-- Removes a file. -/
def remove (t : FileTree) (path : String) : Except SystemFault FileTree := do
  let l ← t.locate path
  match t.get? l with
  | some (.file ..) => return t.erase l
  | some .directory => .error .isDirectory
  | none => .error .notFound

/-- Removes a file, or a directory and all that it holds. -/
def removeAll (t : FileTree) (path : String) : Except SystemFault FileTree := do
  let l ← t.locate path
  match t.get? l with
  | some _ => return ⟨t.entries.filter fun e => !l.isPrefixOf e.1⟩
  | none => .error .notFound

/-- The names behind a location, if the others start with it. -/
def behind? : Location → Location → Option Location
  | [], l => some l
  | _ :: _, [] => none
  | a :: as, b :: bs => if a = b then behind? as bs else none

/-- Moves what stands at a location, with all that it holds, to another. -/
def move (t : FileTree) (source target : Location) : FileTree :=
  ⟨(t.erase target).entries.map fun (l, e) =>
    match behind? source l with
    | some more => (target ++ more, e)
    | none => (l, e)⟩

/-- Moves a file or a directory to another path, which must end in a name. A file replaces a file,
and a directory an empty directory. -/
def rename (t : FileTree) (source target : String) : Except SystemFault FileTree := do
  let s ← t.locate source
  match t.get? s with
  | none => .error .notFound
  | some moved =>
    let d ← t.locate target
    if !endsInName target then .error (if (t.get? d).isSome then .busy else .notFound)
    else if s = d then return t
    else
      match moved, t.get? d with
      | .file .., found =>
        if meansDirectory target then .error .notDirectory
        else if found matches some .directory then .error .isDirectory
        else return t.move s d
      | .directory, some (.file ..) => .error .notDirectory
      | .directory, some .directory =>
        if t.hasChildren d then .error .notEmpty else return t.move s d
      | .directory, none => if (behind? s d).isSome then .error ⟨22⟩ else return t.move s d

end FileTree

end LocalTopology
