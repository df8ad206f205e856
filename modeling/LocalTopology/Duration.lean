import LocalTopology.Text.Ascii
import LocalTopology.Text.Blank

/-!
# Durations

A duration counts nanoseconds and is bounded by 64 bits of whole seconds. It is written as a number
with one of the units `ms`, `s` and `m`, a bare number counting seconds.
-/

namespace LocalTopology

/-- Nanoseconds in a second. -/
def nanosPerSecond : Nat := 1000000000

/-- The longest duration in nanoseconds. -/
def Duration.greatest : Nat := Nat.pow 2 64 * nanosPerSecond - 1

/-- A length of time. -/
structure Duration where
  nanoseconds : Nat
  le_greatest : nanoseconds ≤ Duration.greatest
  deriving DecidableEq

namespace Duration

/-- The duration of so many nanoseconds, or the longest one. -/
def ofNanos (n : Nat) : Duration :=
  ⟨min n greatest, Nat.min_le_right n greatest⟩

/-- The duration of so many milliseconds. -/
def ofMillis (n : Nat) : Duration := ofNanos (n * 1000000)

/-- The duration of so many seconds. -/
def ofSeconds (n : Nat) : Duration := ofNanos (n * nanosPerSecond)

instance : Inhabited Duration := ⟨ofNanos 0⟩

/-- The whole seconds. -/
def seconds (d : Duration) : Nat := d.nanoseconds / nanosPerSecond

/-- The nanoseconds beyond the whole seconds. -/
def subsecond (d : Duration) : Nat := d.nanoseconds % nanosPerSecond

/-- Twice the duration, or the longest one. -/
def double (d : Duration) : Duration := ofNanos (2 * d.nanoseconds)

/-- The shorter of two durations. -/
def shorter (d e : Duration) : Duration :=
  if d.nanoseconds ≤ e.nanoseconds then d else e

/-- A count of 64 bits: digits, after a plus sign or not. -/
def readCount? (cs : List Char) : Option Nat :=
  let digits := match cs with
    | '+' :: rest => rest
    | _ => cs
  (Text.readNat? digits).filter (· < Nat.pow 2 64)

/-- Reads a number with a unit, white space around it aside. -/
def parse? (s : String) : Option Duration :=
  let cs := Text.trim s.toList
  match ['m', 's'].isSuffixOf? cs with
  | some n => (readCount? n).map ofMillis
  | none =>
    match ['s'].isSuffixOf? cs with
    | some n => (readCount? n).map ofSeconds
    | none =>
      match ['m'].isSuffixOf? cs with
      | some n => (readCount? n).bind fun n =>
          if n * 60 < Nat.pow 2 64 then some (ofSeconds (n * 60)) else none
      | none => (readCount? cs).map ofSeconds

/-- What is said about a text that is no duration. -/
def refusal (s : String) : String :=
  s!"invalid duration '{s}': use formats like 500ms, 30s, 5m"

/-- A whole number and `fraction / 10 ^ places` of a unit, without zeros at the end. -/
def decimalText (whole fraction places : Nat) (unit : String) : String :=
  let digits := Nat.toDigits 10 fraction
  let padded := digits.leftpad places '0'
  let shown := (padded.reverse.dropWhile (· = '0')).reverse
  toString whole ++ (if shown.isEmpty then "" else "." ++ String.ofList shown) ++ unit

/-- The duration in the largest unit of which it holds one. -/
def text (d : Duration) : String :=
  let n := d.nanoseconds
  if nanosPerSecond ≤ n then decimalText (n / nanosPerSecond) (n % nanosPerSecond) 9 "s"
  else if 1000000 ≤ n then decimalText (n / 1000000) (n % 1000000) 6 "ms"
  else if 1000 ≤ n then decimalText (n / 1000) (n % 1000) 3 "µs"
  else decimalText n 0 0 "ns"

end Duration

end LocalTopology
