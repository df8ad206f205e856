import LocalTopology.Text.Ascii
import LocalTopology.Text.Cut
import LocalTopology.Text.Pattern

/-!
# Accepted host names

The shared proxy and the locally trusted certificate must agree on the names that can be addressed.
They are the fixed names by which containers reach the workstation, and a label under one of the
product families, which is matched by two patterns. A label is made of letters, digits and single
hyphens inside it. Case does not matter, and as the comparison is Unicode's simple case folding, the
long s stands for `s` and the Kelvin sign for `k`.
-/

namespace LocalTopology.Hostname

open Text

/-- Names that resolve to the workstation from inside containers. -/
def fixedHosts : List String :=
  ["host.docker.internal", "gateway.docker.internal", "host.containers.internal"]

/-- The product families under which a service takes its host. -/
def productFamilies : List String :=
  ["officevibe", "sharegate", "workleap"]

/-- The ASCII character that a character equals when case is folded, else the character itself. -/
def foldChar (c : Char) : Char :=
  if c = '\u017f' then 's' else if c = '\u212a' then 'k' else c.toLower

/-- A letter in lower case or a digit. -/
def isAlphanumeric (c : Char) : Bool :=
  c.isDigit || c.isLower

/-- Whether two hyphens stand next to each other. -/
def hasDoubleHyphen : List Char → Bool
  | '-' :: '-' :: _ => true
  | _ :: cs => hasDoubleHyphen cs
  | [] => false

/-- A label starts and ends with a letter or digit and holds hyphens besides. -/
def label : Pattern :=
  .followedBy (.one isAlphanumeric)
    (.optional (.followedBy (.many fun c => isAlphanumeric c || c == '-') (.one isAlphanumeric)))

/-- A label, a dot, a family and what comes behind. -/
def underFamily (domain : Pattern) : Pattern :=
  .followedBy label (.followedBy (.oneOf ["."]) (.followedBy (.oneOf productFamilies) domain))

/-- The names that resolve to the workstation by themselves. -/
def localWildcard : Pattern :=
  underFamily (.followedBy (.optional (.oneOf ["-dev"])) (.oneOf [".localhost"]))

/-- The names that are registered to resolve to the workstation. -/
def cloudWildcard : Pattern :=
  underFamily (.followedBy (.oneOf ["-"]) (.followedBy (.oneOf ["dev", "local"]) (.oneOf [".com"])))

/-- Whether a host is a label under one of the product families. Hyphens next to each other are
looked for in the part before the first dot. -/
def isWildcardHost (host : String) : Bool :=
  match cutFirst? '.' host.toList with
  | none => false
  | some (label, _) =>
    let folded := host.toList.map foldChar
    !hasDoubleHyphen label && (localWildcard.isMatch folded || cloudWildcard.isMatch folded)

/-- Whether a host may be used as an ingress host. -/
def isAccepted (host : String) : Bool :=
  fixedHosts.any (sameFolded · host) || isWildcardHost host

end LocalTopology.Hostname
