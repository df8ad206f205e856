import LocalTopology.Text.Ascii
import LocalTopology.Text.Blank

/-!
# Headers

The headers of a message are names and values, a name being able to have several values. Names are
in lower case. Some headers concern one connection only and are taken away before a message is
passed on: those of a fixed list, and those that the message itself names in its `connection`
headers.
-/

namespace LocalTopology

/-- A value of a header: bytes, which need not be text. -/
abbrev HeaderValue := List UInt8

/-- The value of a text. -/
def HeaderValue.ofText (s : String) : HeaderValue :=
  s.toUTF8.toList

/-- A visible character of ASCII, a space or a tab. -/
def isVisibleByte (b : UInt8) : Bool :=
  b == 9 || (32 ≤ b && b < 127)

/-- The characters of a value that holds visible ones only. -/
def HeaderValue.visible? (v : HeaderValue) : Option (List Char) :=
  if v.all isVisibleByte then some (v.map fun b => Char.ofNat b.toNat) else none

/-- The longest name of a header. -/
def headerNameLimit : Nat := 65535

/-- A character of the name of a header. -/
def isHeaderNameChar (c : Char) : Bool :=
  c.isAlphanum || "!#$%&'*+-.^_\x60|~".toList.contains c

/-- The name of a header in lower case, if a text is one. -/
def headerName? (cs : List Char) : Option String :=
  if cs.isEmpty || headerNameLimit < cs.length || !cs.all isHeaderNameChar then none
  else some (Text.foldCase (String.ofList cs))

/-- Names and values in order. -/
structure Headers where
  entries : List (String × HeaderValue) := []
  deriving DecidableEq, Inhabited

namespace Headers

/-- The values of a name. -/
def values (h : Headers) (name : String) : List HeaderValue :=
  h.entries.filterMap fun (n, v) => if n = name then some v else none

/-- The first value of a name. -/
def first? (h : Headers) (name : String) : Option HeaderValue :=
  (h.values name).head?

/-- Takes away all values of a name. -/
def remove (h : Headers) (name : String) : Headers :=
  ⟨h.entries.filter (·.1 ≠ name)⟩

/-- Puts one value in the place of all values of a name. -/
def put (h : Headers) (name : String) (value : HeaderValue) : Headers :=
  ⟨(h.remove name).entries ++ [(name, value)]⟩

/-- The parts of the visible `connection` values. -/
def connectionTokens (h : Headers) : List (List Char) :=
  ((h.values "connection").filterMap (·.visible?)).flatMap fun value =>
    (value.splitOn ',').map Text.trim

/-- The headers that always concern one connection only. -/
def hopByHop : List String :=
  ["connection", "proxy-authenticate", "proxy-authorization", "te", "trailer",
    "transfer-encoding", "upgrade", "keep-alive"]

/-- The headers that a message names as concerning its connection. -/
def namedHopByHop (h : Headers) : List String :=
  h.connectionTokens.filterMap headerName?

/-- The message as it is passed on: without the headers that concern one connection. -/
def strip (h : Headers) : Headers :=
  (h.namedHopByHop ++ hopByHop).foldl remove h

/-- The protocol to which a message asks to change. -/
def upgradeProtocol? (h : Headers) : Option HeaderValue :=
  if h.connectionTokens.any fun token => token.map Char.toLower == "upgrade".toList then
    h.first? "upgrade"
  else none

/-- Asks to change to a protocol, or leaves the message as it is. -/
def withUpgrade (h : Headers) : Option HeaderValue → Headers
  | some protocol => (h.put "connection" (.ofText "upgrade")).put "upgrade" protocol
  | none => h

/-- The addresses that a message has come from, with one more. -/
def forwardedFor (h : Headers) (client : String) : String :=
  match (h.first? "x-forwarded-for").bind (·.visible?) with
  | some before => String.ofList before ++ ", " ++ client
  | none => client

/-- Tells the host that was asked for, how, and by whom. -/
def withForwarded (h : Headers) (host client : String) : Headers :=
  let h := (h.put "x-forwarded-host" (.ofText host)).put "x-forwarded-proto" (.ofText "http")
  h.put "x-forwarded-for" (.ofText (h.forwardedFor client))

end Headers

end LocalTopology
