import LocalTopology.Text.Ascii
import LocalTopology.Text.Visible

/-!
# Escaped text

Text is shown between double quotes with the quote, the backslash and every invisible character
escaped, so that two different texts never look the same.
-/

namespace LocalTopology.Text

/-- The digits of a number in base 16, in lower case. -/
def lowerHex (n : Nat) : List Char :=
  Nat.toDigits 16 n

/-- A character as it is shown inside quotes. -/
def escapeChar (c : Char) : List Char :=
  match c with
  | '\x00' => ['\\', '0']
  | '\t' => ['\\', 't']
  | '\r' => ['\\', 'r']
  | '\n' => ['\\', 'n']
  | '\\' => ['\\', '\\']
  | '"' => ['\\', '"']
  | _ => if isVisible c then [c] else ['\\', 'u', '\x7b'] ++ lowerHex c.toNat ++ ['\x7d']

/-- Text as it is shown between quotes. -/
def escaped (s : String) : String :=
  String.ofList ('"' :: s.toList.flatMap escapeChar ++ ['"'])

end LocalTopology.Text
