import LocalTopology.Document.Fragment
import LocalTopology.Merge
import LocalTopology.System.FileTree
import LocalTopology.Yaml.Tree

/-!
# Configurations

A configuration is read from documents or from files, which are merged in order. Without files it is
looked for in a directory and those around it, the nearest one first.
-/

namespace LocalTopology

/-- Reads the only document of a stream of bytes. -/
def readDocument {α : Type} (read : Yaml.Reader α) (bytes : ByteArray) : Except DocumentFault α :=
  match Yaml.Node.ofBytes? bytes with
  | none => .error .unreadable
  | some n =>
    match read .root n with
    | .ok a => .ok a
    | .error fault => .error (.misshapen fault)

/-- The fragment of a document. -/
def Fragment.ofBytes (bytes : ByteArray) : Except ConfigFault Fragment :=
  match readDocument Document.readFragment bytes with
  | .ok f => .ok f
  | .error fault => .error (.document fault)

/-- The graph of several documents. -/
def Graph.ofDocuments (documents : List ByteArray) : Except ConfigFault Graph := do
  Graph.ofFragments (← documents.mapM Fragment.ofBytes)

/-- The fragment of a file, whose path is taken from a directory if it is relative. -/
def Fragment.load (t : FileTree) (directory path : String) : Except ConfigFault Fragment :=
  match t.read (Path.join directory path) with
  | .error fault => .error (.unreadableFile path fault)
  | .ok bytes =>
    match Fragment.ofBytes bytes with
    | .ok f => .ok f
    | .error fault => .error (.inFile path fault)

/-- The graph of several files. -/
def Graph.load (t : FileTree) (directory : String) (paths : List String) :
    Except ConfigFault Graph := do
  Graph.ofFragments (← paths.mapM (Fragment.load t directory))

/-- The name that a configuration file may have as well. -/
def configFileAlias : String := "devstack.yml"

/-- A path and those around it, up to a number of them. -/
def Path.ancestorsUpTo : Nat → String → List String
  | 0, _ => []
  | n + 1, path =>
    path :: match Path.parent? path with
      | some parent => ancestorsUpTo n parent
      | none => []

/-- A path and those around it. -/
def Path.ancestors (path : String) : List String :=
  Path.ancestorsUpTo (path.length + 1) path

/-- The configuration file in a directory. -/
def configIn? (t : FileTree) (workDirectory directory : String) : Option String :=
  [configFileName, configFileAlias].findSome? fun name =>
    let path := Path.join directory name
    if t.isThere (Path.join workDirectory path) then some path else none

/-- The configuration file in the nearest directory that has one. -/
def findConfig (t : FileTree) (workDirectory directory : String) : Except ConfigFault String :=
  match (Path.ancestors directory).findSome? (configIn? t workDirectory) with
  | some path => .ok path
  | none => .error .notFound

end LocalTopology
