import LocalTopology.Text.Cut

/-!
# Paths

A path is a text of parts between slashes. Empty parts and single dots lead nowhere, except a dot at
the start of a relative path; they are kept where a path is only extended or shortened, and left out
when a path is resolved.
-/

namespace LocalTopology.Path

open Text

/-- Whether a path starts at the root. -/
def isAbsolute (path : String) : Bool :=
  path.toList.head? == some '/'

/-- The parts of a path that lead somewhere: neither empty nor a dot. -/
def components (path : String) : List (List Char) :=
  (path.toList.splitOn '/').filter fun part => part != [] && part != ['.']

/-- Extends a path by another; an absolute path replaces it. -/
def join (path more : String) : String :=
  if isAbsolute more then more
  else if path.isEmpty || path.toList.getLast? == some '/' then path ++ more
  else path ++ "/" ++ more

/-- The parts of a path behind the root, if it is absolute. -/
def parts (path : String) : List (List Char) :=
  let pieces := path.toList.splitOn '/'
  if isAbsolute path then pieces.tail else pieces

/-- A part that is passed over at the end of a path. -/
def isIdle (part : List Char) : Bool :=
  part == [] || part == ['.']

/-- Drops the parts at the end that are passed over, the first of all parts being counted unless it
is empty or the path is absolute. -/
def dropIdle (isAbsolute : Bool) (parts : List (List Char)) : List (List Char) :=
  match parts with
  | [] => []
  | first :: rest =>
    let kept := (rest.reverse.dropWhile isIdle).reverse
    if kept.isEmpty && (first == [] || (isAbsolute && isIdle first)) then [] else first :: kept

/-- The parts of a path put together again. -/
def ofParts (isAbsolute : Bool) (parts : List (List Char)) : String :=
  let text := ['/'].intercalate parts
  String.ofList (if isAbsolute then '/' :: text else text)

/-- The path without its last part; the root and the empty path have none. -/
def parent? (path : String) : Option String :=
  let isAbs := isAbsolute path
  match (dropIdle isAbs (parts path)).reverse with
  | [] => none
  | _ :: before => some (ofParts isAbs (dropIdle isAbs before.reverse))

/-- The last part of a path, if it is a name. -/
def fileName? (path : String) : Option String :=
  match (dropIdle (isAbsolute path) (parts path)).getLast? with
  | some name =>
    if name == ['.'] || name == ['.', '.'] then none else some (String.ofList name)
  | none => none

/-- Extends the parent of a path by another name. -/
def withFileName (path name : String) : String :=
  match fileName? path with
  | some _ => join ((parent? path).getD "") name
  | none => join path name

/-- The name without what follows its last dot, unless that is its first character. -/
def stem (name : String) : String :=
  match cutLast? '.' name.toList with
  | some (before, _) => if before.isEmpty then name else String.ofList before
  | none => name

/-- Puts an extension in the place of the last one. -/
def withExtension (path extension : String) : String :=
  match fileName? path with
  | some name => withFileName path (stem name ++ "." ++ extension)
  | none => path

/-- A path without the parts that lead nowhere, taken from a directory if it is relative. -/
def resolve (directory path : String) : String :=
  let full := if isAbsolute path then path else join directory path
  let text := ['/'].intercalate (components full)
  String.ofList (if isAbsolute full then '/' :: text else text)

end LocalTopology.Path
