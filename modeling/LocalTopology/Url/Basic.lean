import LocalTopology.Text.Cut
import LocalTopology.Url.Host

/-!
# URLs

A URL is read from text: blanks around it and line breaks in it are passed over, its scheme decides
how its host is read, and a host may be followed by a port. What follows the authority is kept as it
is written.
-/

namespace LocalTopology

/-- A URL of which the scheme, the host and the port are known. -/
structure Url where
  /-- The scheme in lower case. -/
  scheme : String
  /-- The host, unless the URL has none. -/
  host : Option Url.Host := none
  port : Option Nat := none
  deriving DecidableEq, Inhabited

namespace Url

open Text

/-- How the schemes differ. -/
inductive SchemeKind
  | web
  | file
  | other
  deriving DecidableEq

/-- The kind of a scheme. -/
def SchemeKind.of (scheme : String) : SchemeKind :=
  if ["http", "https", "ws", "wss", "ftp"].contains scheme then .web
  else if scheme = "file" then .file
  else .other

/-- A character of a scheme. -/
def isSchemeChar (c : Char) : Bool :=
  c.isAlphanum || c == '+' || c == '-' || c == '.'

/-- The scheme in lower case and what follows its colon. -/
def scheme? (cs : List Char) : Option (String × List Char) :=
  match cutFirst? ':' cs with
  | some (name, rest) =>
    if name.head?.any Char.isAlpha && name.all isSchemeChar then
      some (foldCase (String.ofList name), rest)
    else none
  | none => none

/-- A slash of either kind. -/
def isAnySlash (c : Char) : Bool :=
  c == '/' || c == '\\'

/-- A character that ends the authority. -/
def endsAuthority (kind : SchemeKind) (c : Char) : Bool :=
  c == '/' || c == '?' || c == '#' || (c == '\\' && kind != .other)

/-- The host and what follows the colon behind it; colons between brackets are part of the host. -/
def splitPort (inBrackets : Bool) : List Char → List Char × Option (List Char)
  | [] => ([], none)
  | c :: cs =>
    if c = ':' ∧ inBrackets = false then ([], some cs)
    else
      let inside := if c = '[' then true else if c = ']' then false else inBrackets
      let (host, port) := splitPort inside cs
      (c :: host, port)

/-- A port number; no digits are no port. -/
def readPort (cs : List Char) : Except Fault (Option Nat) :=
  let digits := cs.takeWhile (· ≠ '\\')
  if digits.isEmpty then .ok none
  else
    match readNat? digits with
    | some n => if n < 65536 then .ok (some n) else .error .port
    | none => .error .port

/-- The authority of a URL, behind the two slashes; `isLast` tells that nothing follows it. -/
def readAuthority (scheme : String) (kind : SchemeKind) (isLast : Bool) (authority : List Char) :
    Except Fault Url := do
  let (user, address) := (cutLast? '@' authority).map (fun (u, a) => (some u, a)) |>.getD
    (none, authority)
  if user == some [] && address.isEmpty && !isLast then .error .emptyHost
  let (hostText, portText) := splitPort false address
  if hostText.isEmpty && (kind == .web || portText.isSome) then .error .emptyHost
  let host ← if kind == .web then readHost hostText else readOpaqueHost hostText
  let port ← readPort (portText.getD [])
  let hasUser := user.any fun u => u != [] && u != [':']
  if hostText.isEmpty && hasUser then .error .emptyHost
  return { scheme, host := if hostText.isEmpty then none else some host, port }

/-- A letter and a colon, which name a drive. -/
def isDriveLetter : List Char → Bool
  | [c, mark] => c.isAlpha && (mark == ':' || mark == '|')
  | _ => false

/-- The host of a file URL, if it has one. -/
def readFileHost (cs : List Char) : Except Fault Url :=
  match cs with
  | a :: b :: rest =>
    let host := rest.takeWhile fun c => !endsAuthority .file c
    if isAnySlash a && isAnySlash b && !host.isEmpty && !isDriveLetter host then
      (readHost host).map fun h => { scheme := "file", host := some h }
    else .ok { scheme := "file" }
  | _ => .ok { scheme := "file" }

/-- The characters of a URL, without the blanks around it and the breaks in it. -/
def significant (s : String) : List Char :=
  let inner := ((s.toList.dropWhile (· ≤ ' ')).reverse.dropWhile (· ≤ ' ')).reverse
  inner.filter fun c => c != '\t' && c != '\n' && c != '\r'

/-- Reads a URL. -/
def parse (s : String) : Except Fault Url :=
  match scheme? (significant s) with
  | none => .error .relative
  | some (scheme, rest) =>
    let kind := SchemeKind.of scheme
    let authorityOf (cs : List Char) : Except Fault Url :=
      let authority := cs.takeWhile fun c => !endsAuthority kind c
      readAuthority scheme kind (authority.length = cs.length) authority
    match kind with
    | .web => authorityOf (rest.dropWhile isAnySlash)
    | .file => readFileHost rest
    | .other =>
      match rest with
      | '/' :: '/' :: cs => authorityOf cs
      | _ => .ok { scheme }

/-- Whether the URL leads to this machine. -/
def isLoopback (u : Url) : Bool :=
  u.host.any Host.isLoopback

end Url

end LocalTopology
