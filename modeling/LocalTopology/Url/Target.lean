import LocalTopology.Text.Ascii
import LocalTopology.Text.Cut

/-!
# The written form of a target

The target of a URL of the web is its path, its query and its fragment. Each is written without the
characters that it cannot hold, which are escaped byte by byte; a path is walked, so that dots in it
lead nowhere, and it is never empty.
-/

namespace LocalTopology.Url

open Text

/-- A part of a target. -/
inductive TargetPart
  | path
  | query
  | fragment
  deriving DecidableEq, Inhabited

/-- The visible characters of ASCII that a part cannot hold. -/
def TargetPart.refused : TargetPart → List Char
  | path => [' ', '"', '<', '>', '\x60', '#', '?', '\x7b', '\x7d']
  | query => [' ', '"', '<', '>', '#', '\x27']
  | fragment => [' ', '"', '<', '>', '\x60']

/-- Escapes what a part cannot hold. -/
def TargetPart.escape (part : TargetPart) (cs : List Char) : String :=
  String.join <| cs.map fun c =>
    if c < ' ' || '~' < c || part.refused.contains c then
      String.join (c.toString.toUTF8.toList.map fun b => "%" ++ hexText 2 b.toNat)
    else c.toString

/-- A dot, which may be escaped, so many times. -/
def isDots (count : Nat) (segment : String) : Bool :=
  (foldCase segment).replace "%2e" "." == String.ofList (List.replicate count '.')

/-- Walks segments from a place. -/
def walkSegments (walked : List String) : List String → List String
  | [] => walked
  | segment :: rest =>
    if isDots 2 segment then
      walkSegments (if rest.isEmpty then walked.dropLast ++ [""] else walked.dropLast) rest
    else if isDots 1 segment then
      walkSegments (if rest.isEmpty then walked ++ [""] else walked) rest
    else walkSegments (walked ++ [segment]) rest

/-- The written form of a path. -/
def pathText (cs : List Char) : String :=
  let cs := cs.map fun c => if c = '\\' then '/' else c
  let segments := match cs.splitOn '/' with
    | [] :: rest => rest
    | segments => segments
  "/" ++ "/".intercalate (walkSegments [] (segments.map TargetPart.path.escape))

/-- The written form of a target. -/
def targetText (target : String) : String :=
  let cs := target.toList.filter fun c => c != '\t' && c != '\n' && c != '\r'
  let (cs, fragment) := (cutFirst? '#' cs).map (fun (a, b) => (a, some b)) |>.getD (cs, none)
  let (path, query) := (cutFirst? '?' cs).map (fun (a, b) => (a, some b)) |>.getD (cs, none)
  pathText path ++ (query.map ("?" ++ TargetPart.query.escape ·)).getD "" ++
    (fragment.map ("#" ++ TargetPart.fragment.escape ·)).getD ""

end LocalTopology.Url
