import LocalTopology.Text.Ascii

/-!
# Filters

A filter is a command that writes what it makes of its input: the first or the last lines, their
number, the lines in order, or other characters in the place of some.
-/

namespace LocalTopology.Shell

/-- The lines of some bytes, each with the line feed that ends it. -/
def byteLines (bytes : List UInt8) : List (List UInt8) :=
  let (line, lines) := bytes.foldr (fun b (line, lines) =>
    if b = 10 then ([b], if line.isEmpty then lines else line :: lines) else (b :: line, lines))
    (([], []) : List UInt8 × List (List UInt8))
  if line.isEmpty then lines else line :: lines

/-- How much of the input is asked for: a number of lines or of bytes. -/
inductive Extent
  | lines (count : Nat)
  | bytes (count : Nat)
  deriving DecidableEq, Inhabited

/-- The extent that arguments ask for: ten lines unless they say otherwise. -/
def Extent.ofArguments : List String → Extent
  | "-n" :: count :: _ => lines (count.toNat?.getD 0)
  | "-c" :: count :: _ => bytes (count.toNat?.getD 0)
  | text :: _ =>
    match text.toList with
    | '-' :: 'n' :: digits => lines ((Text.readNat? digits).getD 0)
    | '-' :: 'c' :: digits => bytes ((Text.readNat? digits).getD 0)
    | '-' :: digits => lines ((Text.readNat? digits).getD 10)
    | _ => lines 10
  | [] => lines 10

/-- The beginning of the input. -/
def Extent.first (input : List UInt8) : Extent → List UInt8
  | lines count => ((byteLines input).take count).flatten
  | bytes count => input.take count

/-- The end of the input. -/
def Extent.last (input : List UInt8) : Extent → List UInt8
  | lines count =>
    let all := byteLines input
    (all.drop (all.length - count)).flatten
  | bytes count => input.drop (input.length - count)

/-- The characters that a text stands for: escapes and ranges. -/
def characterSet : List Char → List Char
  | '\\' :: '0' :: rest => '\x00' :: characterSet rest
  | '\\' :: 'n' :: rest => '\n' :: characterSet rest
  | '\\' :: 't' :: rest => '\t' :: characterSet rest
  | '\\' :: 'r' :: rest => '\r' :: characterSet rest
  | '\\' :: c :: rest => c :: characterSet rest
  | a :: '-' :: b :: rest =>
    (List.range (b.toNat + 1 - a.toNat)).map (fun n => Char.ofNat (a.toNat + n)) ++
      characterSet rest
  | c :: rest => c :: characterSet rest
  | [] => []

/-- The character in the place of another: the one at its position, or the last one. -/
def replaceFrom (source target : List Char) (b : UInt8) : UInt8 :=
  match source.idxOf? (Char.ofNat b.toNat) with
  | some n => ((target[n]?).or target.getLast?).elim b fun c => UInt8.ofNat c.toNat
  | none => b

/-- Whether a line comes before another or is the same. -/
def lineLe (a b : List UInt8) : Bool :=
  !(b.filter (· ≠ 10) < a.filter (· ≠ 10))

/-- The lines in order, the last one being ended as well. -/
def sortLines (input : List UInt8) : List UInt8 :=
  let lines := (byteLines input).map fun line =>
    if line.getLast? = some 10 then line else line ++ [10]
  (lines.mergeSort lineLe).flatten

/-- What a filter writes. -/
def filterOutput? (name : String) (args : List String) (input : List UInt8) :
    Option (List UInt8) :=
  match name, args with
  | "head", args => some ((Extent.ofArguments args).first input)
  | "tail", args => some ((Extent.ofArguments args).last input)
  | "wc", ["-l"] => some (toString (input.count 10) ++ "\n").toUTF8.toList
  | "wc", ["-c"] => some (toString input.length ++ "\n").toUTF8.toList
  | "sort", [] => some (sortLines input)
  | "sort", ["-r"] => some (byteLines (sortLines input)).reverse.flatten
  | "tr", ["-d", set] =>
    let unwanted := characterSet set.toList
    some (input.filter fun b => !unwanted.contains (Char.ofNat b.toNat))
  | "tr", [source, target] =>
    some (input.map (replaceFrom (characterSet source.toList) (characterSet target.toList)))
  | _, _ => none

end LocalTopology.Shell
