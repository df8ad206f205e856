import LocalTopology.Text.Ascii

/-!
# Calculations in scripts

Whole numbers and variables with addition, subtraction, multiplication, division and remainder, the
latter three first.
-/

namespace LocalTopology.Shell

/-- Applies an operator; what cannot be divided is zero. -/
def applyOperator (op : Char) (a b : Int) : Int :=
  match op with
  | '+' => a + b
  | '-' => a - b
  | '*' => a * b
  | '/' => a.tdiv b
  | _ => a.tmod b

/-- A number or a variable at the start of a calculation. -/
def operand (value : String → Int) (cs : List Char) : Int × List Char :=
  let cs := cs.dropWhile (fun c => c == ' ' || c == '$')
  match cs with
  | '-' :: rest =>
    (-(Text.digitsValue 10 Text.digitValue 0 (rest.takeWhile Char.isDigit) : Nat),
      rest.dropWhile Char.isDigit)
  | cs =>
    let isPart (c : Char) := c.isAlphanum || c == '_'
    let name := cs.takeWhile isPart
    let n : Int :=
      if name.all Char.isDigit then (Text.digitsValue 10 Text.digitValue 0 name : Nat)
      else value (String.ofList name)
    (n, cs.dropWhile isPart)

/-- The value of a calculation that goes on behind a sum and the last term of it, in so many
steps. -/
def calculateFrom (value : String → Int) : Nat → Int → Int → List Char → Int
  | 0, sum, term, _ => sum + term
  | n + 1, sum, term, cs =>
    match cs.dropWhile (· == ' ') with
    | op :: rest =>
      let (next, rest) := operand value rest
      if op = '+' then calculateFrom value n (sum + term) next rest
      else if op = '-' then calculateFrom value n (sum + term) (-next) rest
      else calculateFrom value n sum (applyOperator op term next) rest
    | [] => sum + term

/-- The value of a calculation. -/
def calculate (value : String → Int) (cs : List Char) : Int :=
  let (first, rest) := operand value cs
  calculateFrom value cs.length 0 first rest

end LocalTopology.Shell
