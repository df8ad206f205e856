import LocalTopology.Text.Visible
import LocalTopology.Url.Address

/-!
# Hosts of URLs

A host is an address, or a name whose letters stand for themselves in either case. Names are read
after escapes are taken away, wide letters are narrowed and marks that only join or hide are
dropped; signs that delimit the parts of a URL are refused.
-/

namespace LocalTopology.Url

open Text

/-- Why a text is no URL. -/
inductive Fault
  | relative
  | emptyHost
  | port
  | octetAddress
  | groupAddress
  | domainName
  | domainCharacter
  deriving DecidableEq, Inhabited

/-- The fault in words. -/
def Fault.text : Fault → String
  | relative => "relative URL without a base"
  | emptyHost => "empty host"
  | port => "invalid port number"
  | octetAddress => "invalid IPv4 address"
  | groupAddress => "invalid IPv6 address"
  | domainName => "invalid international domain name"
  | domainCharacter => "invalid domain character"

/-- The host of a URL. -/
inductive Host
  | name (text : String)
  | octets (value : Nat)
  | groups (values : List Nat)
  deriving DecidableEq, Inhabited

/-- Whether the host is this machine. -/
def Host.isLoopback : Host → Bool
  | name text => text == "localhost" || ".localhost".toList.isSuffixOf text.toList
  | octets value => value / Nat.pow 256 3 == 127
  | groups values => values == [0, 0, 0, 0, 0, 0, 0, 1]

/-- The bytes that a text with escapes stands for. -/
def unescape : List Char → List UInt8
  | '%' :: a :: b :: cs =>
    if isHexDigit a && isHexDigit b then
      UInt8.ofNat (hexDigitValue a * 16 + hexDigitValue b) :: unescape cs
    else '%'.toNat.toUInt8 :: unescape (a :: b :: cs)
  | c :: cs => c.toString.toUTF8.toList ++ unescape cs
  | [] => []
termination_by cs => cs.length

/-- A mark that a name is read without. -/
def isDropped (c : Char) : Bool :=
  let n := c.toNat
  n == 0xAD || n == 0x200B || n == 0x2060 || n == 0xFEFF || (0xFE00 ≤ n && n ≤ 0xFE0F)

/-- A character of a name as it is read. -/
def narrow (c : Char) : Char :=
  let n := c.toNat
  if 0xFF01 ≤ n && n ≤ 0xFF5E then (Char.ofNat (n - 0xFEE0)).toLower
  else if n == 0x3002 || n == 0xFF61 then '.'
  else c.toLower

/-- A character that a name may hold. -/
def isNameChar (c : Char) : Bool :=
  let n := c.toNat
  if n < 0x80 then 0x20 < n && n != 0x7F && !"%#/:<>?@[\\]^|".contains c
  else (isVisible c || (0x300 ≤ n && n ≤ 0x36F)) && n != 0xFFFD

/-- Whether a label that is announced as encoded has something to decode. -/
def isDecodable (label : List Char) : Bool :=
  match "xn--".toList.isPrefixOf? label with
  | some code =>
    let digits := (code.reverse.takeWhile (· ≠ '-'))
    !digits.isEmpty && digits.all Char.isAlphanum
  | none => true

/-- A name as it is read. -/
def readName? (bytes : List UInt8) : Option (List Char) :=
  (String.fromUTF8? ⟨bytes.toArray⟩).bind fun s =>
    let cs := (s.toList.filter fun c => !isDropped c).map narrow
    if cs.all isNameChar && (cs.splitOn '.').all isDecodable then some cs else none

/-- The address between square brackets, if the text starts with one. -/
def bracketed? (cs : List Char) : Option (Except Fault Host) :=
  match cs with
  | '[' :: rest => some <|
    match ([']'].isSuffixOf? rest).bind groupAddress? with
    | some values => .ok (.groups values)
    | none => .error .groupAddress
  | _ => none

/-- The host of a URL whose scheme is one of the web. -/
def readHost (cs : List Char) : Except Fault Host :=
  (bracketed? cs).getD <|
    match readName? (unescape cs) with
    | none => .error .domainName
    | some [] => .error .emptyHost
    | some name =>
      if endsInNumber name then
        match octetAddress? name with
        | some value => .ok (.octets value)
        | none => .error .octetAddress
      else .ok (.name (String.ofList name))

/-- The host of a URL of any other scheme. -/
def readOpaqueHost (cs : List Char) : Except Fault Host :=
  (bracketed? cs).getD <|
    if cs.any fun c => c == '\x00' || " #/:<>?@[\\]^|".contains c then .error .domainCharacter
    else .ok (.name (String.ofList cs))

end LocalTopology.Url
