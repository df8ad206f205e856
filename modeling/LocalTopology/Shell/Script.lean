import LocalTopology.Text.Cut

/-!
# Scripts

Short scripts stand in for the programs of a run. This is the part of the shell's language that they
are written in: words with quotes and parameters, lists, loops, branches and choices by pattern.
-/

namespace LocalTopology.Shell

/-- A part of a word. -/
inductive Piece
  | text (characters : List Char) (isQuoted : Bool)
  | parameter (name : String) (isQuoted : Bool)
  /-- A parameter, or a text if it is empty. -/
  | parameterOr (name : String) (otherwise : List Char) (isQuoted : Bool)
  /-- What another script writes. -/
  | output (script : List Char) (isQuoted : Bool)
  /-- The value of a calculation. -/
  | value (expression : List Char)
  deriving Inhabited

/-- A word before its parameters are put in. -/
abbrev Word := List Piece

/-- A part of a script that is taken in at once. -/
inductive Token
  | word (pieces : Word)
  | sign (text : String)
  /-- Writes what goes to one stream to a file. -/
  | toFile (stream : Nat) (appends : Bool)
  /-- Writes what goes to one stream to another. -/
  | toStream (source target : Nat)
  /-- Reads from a file. -/
  | fromFile
  deriving Inhabited

/-- A character that ends a word. -/
def endsWord (c : Char) : Bool :=
  isBlankOrBreak c || ";&|()<>".contains c
where
  /-- A space, a tab or a line feed. -/
  isBlankOrBreak (c : Char) : Bool := c == ' ' || c == '\t' || c == '\n'

/-- A character of a name. -/
def isNameChar (c : Char) : Bool :=
  c.isAlphanum || c == '_'

/-- The text up to the parenthesis that closes what is open, and what follows it. -/
def closing? : Nat → List Char → Option (List Char × List Char)
  | _, [] => none
  | 0, ')' :: cs => some ([], cs)
  | depth + 1, ')' :: cs => (closing? depth cs).map fun (inner, rest) => (')' :: inner, rest)
  | depth, '(' :: cs => (closing? (depth + 1) cs).map fun (inner, rest) => ('(' :: inner, rest)
  | depth, c :: cs => (closing? depth cs).map fun (inner, rest) => (c :: inner, rest)

/-- The part that a dollar sign begins. -/
def dollar? (isQuoted : Bool) (cs : List Char) : Option (Piece × List Char) :=
  match cs with
  | '(' :: '(' :: rest => do
    let (inner, rest) ← closing? 1 rest
    return (.value inner.dropLast, rest)
  | '(' :: rest => do
    let (inner, rest) ← closing? 0 rest
    return (.output inner isQuoted, rest)
  | '\x7b' :: rest => do
    let (inner, rest) ← Text.cutFirst? '\x7d' rest
    match inner.dropWhile isNameChar with
    | ':' :: '-' :: otherwise =>
      return (.parameterOr (String.ofList (inner.takeWhile isNameChar)) otherwise isQuoted, rest)
    | _ => return (.parameter (String.ofList inner) isQuoted, rest)
  | c :: rest =>
    if c.isAlpha || c == '_' then
      some (.parameter (String.ofList (cs.takeWhile isNameChar)) isQuoted, cs.dropWhile isNameChar)
    else if c.isDigit || "$@*#?".contains c then
      some (.parameter c.toString isQuoted, rest)
    else some (.text ['$'] isQuoted, cs)
  | [] => some (.text ['$'] isQuoted, [])

/-- The parts between double quotes and what follows the closing one, in so many steps. -/
def quoted? : Nat → List Char → Option (Word × List Char)
  | 0, _ => none
  | _, [] => none
  | _, '"' :: cs => some ([], cs)
  | n + 1, '$' :: cs => do
    let (piece, rest) ← dollar? true cs
    let (pieces, rest) ← quoted? n rest
    return (piece :: pieces, rest)
  | n + 1, '\x60' :: cs => do
    let (script, rest) ← Text.cutFirst? '\x60' cs
    let (pieces, rest) ← quoted? n rest
    return (.output script true :: pieces, rest)
  | n + 1, '\\' :: c :: cs => do
    let (pieces, rest) ← quoted? n cs
    let text := if "$\"\\\x60".contains c then [c] else ['\\', c]
    return (.text text true :: pieces, rest)
  | n + 1, c :: cs => do
    let (pieces, rest) ← quoted? n cs
    return (.text [c] true :: pieces, rest)

/-- The parts of a word and what follows it, in so many steps. -/
def word? : Nat → List Char → Option (Word × List Char)
  | 0, _ => none
  | _, [] => some ([], [])
  | n + 1, c :: cs =>
    if endsWord c then some ([], c :: cs)
    else do
      let (pieces, rest) ← match c, cs with
        | '\'', cs => do
          let (inner, rest) ← Text.cutFirst? '\'' cs
          pure ([Piece.text inner true], rest)
        | '"', cs => do
          let (pieces, rest) ← quoted? (cs.length + 1) cs
          pure (Piece.text [] true :: pieces, rest)
        | '\x60', cs => do
          let (script, rest) ← Text.cutFirst? '\x60' cs
          pure ([Piece.output script false], rest)
        | '\\', d :: cs => pure ([Piece.text [d] true], cs)
        | '$', cs => do
          let (piece, rest) ← dollar? false cs
          pure ([piece], rest)
        | c, cs => pure ([Piece.text [c] false], cs)
      let (more, rest) ← word? n rest
      return (pieces ++ more, rest)

/-- Writes what goes to one stream nowhere. -/
def closed (stream : Nat) : List Token :=
  [.toFile stream false, .word [.text "/dev/null".toList true]]

/-- The tokens of a script, in so many steps. -/
def tokens? : Nat → List Char → Option (List Token)
  | 0, _ => none
  | _, [] => some []
  | n + 1, cs@(c :: rest) =>
    match cs with
    | ';' :: ';' :: rest => (tokens? n rest).map (.sign ";;" :: ·)
    | '&' :: '&' :: rest => (tokens? n rest).map (.sign "&&" :: ·)
    | '|' :: '|' :: rest => (tokens? n rest).map (.sign "||" :: ·)
    | '1' :: '>' :: rest => tokens? n ('>' :: rest)
    | '>' :: '&' :: '-' :: rest => (tokens? n rest).map (closed 1 ++ ·)
    | '2' :: '>' :: '&' :: '-' :: rest => (tokens? n rest).map (closed 2 ++ ·)
    | '>' :: '&' :: d :: rest =>
      (tokens? n rest).map (.toStream 1 (if d = '2' then 2 else 1) :: ·)
    | '2' :: '>' :: '&' :: '1' :: rest => (tokens? n rest).map (.toStream 2 1 :: ·)
    | '2' :: '>' :: '>' :: rest => (tokens? n rest).map (.toFile 2 true :: ·)
    | '2' :: '>' :: rest => (tokens? n rest).map (.toFile 2 false :: ·)
    | '>' :: '>' :: rest => (tokens? n rest).map (.toFile 1 true :: ·)
    | '>' :: rest => (tokens? n rest).map (.toFile 1 false :: ·)
    | '<' :: rest => (tokens? n rest).map (.fromFile :: ·)
    | _ =>
      if c = ' ' ∨ c = '\t' then tokens? n rest
      else if c = '\n' then (tokens? n rest).map (.sign ";" :: ·)
      else if c = '#' then tokens? n (rest.dropWhile (· ≠ '\n'))
      else if endsWord c then (tokens? n rest).map (.sign c.toString :: ·)
      else do
        let (pieces, rest) ← word? (cs.length + 1) cs
        let more ← tokens? n rest
        return .word pieces :: more

/-- Where something is written to or read from instead of a stream of its own. -/
inductive Redirect
  | toFile (stream : Nat) (appends : Bool) (path : Word)
  | toStream (source target : Nat)
  | fromFile (path : Word)
  deriving Inhabited

/-- A command of a script. -/
inductive Command
  | simple (words : List Word)
  | redirected (body : Command) (redirects : List Redirect)
  | group (body : List Command)
  /-- Commands that leave nothing behind but their status. -/
  | inside (body : List Command)
  /-- The second command reads what the first one writes. -/
  | pipe (first second : Command)
  /-- The second command follows if the first one succeeds, or if it fails. -/
  | chain (onSuccess : Bool) (first second : Command)
  /-- A command that is not waited for. -/
  | beside (body : Command)
  | negate (body : Command)
  | forEach (name : String) (items : List Word) (body : List Command)
  /-- The body is repeated while the condition succeeds, or while it fails. -/
  | loop (whileSuccess : Bool) (condition body : List Command)
  | branch (condition body otherwise : List Command)
  | choose (subject : Word) (cases : List (List Word × List Command))
  deriving Inhabited

/-- The text of a word without quotes and parameters. -/
def plainText? : Token → Option String
  | .word pieces =>
    let parts := pieces.mapM fun piece => match piece with
      | .text cs false => some cs
      | _ => none
    parts.map fun parts => String.ofList parts.flatten
  | _ => none

/-- Whether a token is a certain sign. -/
def isSign (text : String) : Token → Bool
  | .sign t => t == text
  | _ => false

/-- The tokens behind separators. -/
def skipSeparators (ts : List Token) : List Token :=
  ts.dropWhile (isSign ";")

/-- What follows a keyword, separators before it aside. -/
def keyword? (name : String) (ts : List Token) : Option (List Token) :=
  match skipSeparators ts with
  | t :: rest => if plainText? t = some name then some rest else none
  | [] => none

/-- The words at the start of some tokens. -/
def leadingWords : List Token → List Word × List Token
  | .word pieces :: ts =>
    let (words, rest) := leadingWords ts
    (pieces :: words, rest)
  | ts => ([], ts)

/-- The words and redirections at the start of some tokens. -/
def simpleParts : List Token → List Word × List Redirect × List Token
  | .word pieces :: ts =>
    let (words, redirects, rest) := simpleParts ts
    (pieces :: words, redirects, rest)
  | .toStream source target :: ts =>
    let (words, redirects, rest) := simpleParts ts
    (words, .toStream source target :: redirects, rest)
  | .toFile stream appends :: .word path :: ts =>
    let (words, redirects, rest) := simpleParts ts
    (words, .toFile stream appends path :: redirects, rest)
  | .fromFile :: .word path :: ts =>
    let (words, redirects, rest) := simpleParts ts
    (words, .fromFile path :: redirects, rest)
  | ts => ([], [], ts)

/-- A command with redirections, if there are any. -/
def Command.withRedirects (c : Command) (redirects : List Redirect) : Command :=
  if redirects.isEmpty then c else .redirected c redirects

/-- A command with the redirections that follow it, and what follows those. -/
def Command.followed (c : Command) (ts : List Token) : Option (Command × List Token) :=
  match simpleParts ts with
  | ([], redirects, rest) => some (c.withRedirects redirects, rest)
  | _ => none

/-- The redirections of a command that has nothing else, and so redirects all that follows it. -/
def Command.lastingRedirects? : Command → Option (List Redirect)
  | .redirected (.simple [w]) redirects =>
    if plainText? (.word w) = some "exec" then some redirects else none
  | _ => none

/-- The patterns of a case up to the closing parenthesis. -/
def patterns? : List Token → Option (List Word × List Token)
  | .word pieces :: .sign ")" :: ts => some ([pieces], ts)
  | .word pieces :: .sign "|" :: ts =>
    (patterns? ts).map fun (more, rest) => (pieces :: more, rest)
  | _ => none

mutual

/-- A command at the start of some tokens, with those that depend on it, in so many steps. -/
def command? : Nat → List Token → Option (Command × List Token)
  | 0, _ => none
  | n + 1, ts => do
    let (first, rest) ← pipeline? n ts
    let (c, rest) ← chained? n first rest
    match rest with
    | .sign "&" :: rest => return (.beside c, rest)
    | rest => return (c, rest)

/-- A command with those that depend on it. -/
def chained? : Nat → Command → List Token → Option (Command × List Token)
  | 0, _, _ => none
  | n + 1, first, ts =>
    match ts with
    | .sign "&&" :: rest => do
      let (second, rest) ← pipeline? n (skipSeparators rest)
      chained? n (.chain true first second) rest
    | .sign "||" :: rest => do
      let (second, rest) ← pipeline? n (skipSeparators rest)
      chained? n (.chain false first second) rest
    | rest => some (first, rest)

/-- Commands each of which reads what the one before it writes. -/
def pipeline? : Nat → List Token → Option (Command × List Token)
  | 0, _ => none
  | n + 1, ts => do
    match keyword? "!" ts with
    | some ts =>
      let (c, rest) ← pipeline? n ts
      return (.negate c, rest)
    | none =>
      let (first, rest) ← unit? n ts
      piped? n first rest

/-- A command with those that read what it writes. -/
def piped? : Nat → Command → List Token → Option (Command × List Token)
  | 0, _, _ => none
  | n + 1, first, ts =>
    match ts with
    | .sign "|" :: rest => do
      let (second, rest) ← unit? n (skipSeparators rest)
      piped? n (.pipe first second) rest
    | rest => some (first, rest)

/-- A command on its own. -/
def unit? : Nat → List Token → Option (Command × List Token)
  | 0, _ => none
  | _, [] => none
  | n + 1, .sign "(" :: ts => do
    let (body, ts) ← list? n ts
    match ts with
    | .sign ")" :: ts => Command.followed (.inside body) ts
    | _ => none
  | n + 1, t :: ts =>
    match plainText? t with
    | some "for" =>
      match ts with
      | name :: ts => do
        let ts ← keyword? "in" ts
        let (items, ts) := leadingWords ts
        let ts ← keyword? "do" ts
        let (body, ts) ← list? n ts
        Command.followed (.forEach ((plainText? name).getD "") items body) (← keyword? "done" ts)
      | [] => none
    | some "while" => repeated? n true ts
    | some "until" => repeated? n false ts
    | some "if" => branches? n ts
    | some "case" =>
      match ts with
      | .word subject :: ts => do
        let (cases, ts) ← cases? n (← keyword? "in" ts)
        Command.followed (.choose subject cases) ts
      | _ => none
    | some "\x7b" => do
      let (body, ts) ← list? n ts
      Command.followed (.group body) (← keyword? "\x7d" ts)
    | _ =>
      match simpleParts (t :: ts) with
      | ([], [], _) => none
      | (words, redirects, rest) => some (Command.withRedirects (.simple words) redirects, rest)

/-- A loop behind its first word. -/
def repeated? : Nat → Bool → List Token → Option (Command × List Token)
  | 0, _, _ => none
  | n + 1, whileSuccess, ts => do
    let (condition, ts) ← list? n ts
    let (body, ts) ← list? n (← keyword? "do" ts)
    Command.followed (.loop whileSuccess condition body) (← keyword? "done" ts)

/-- The branches behind a condition's first word. -/
def branches? : Nat → List Token → Option (Command × List Token)
  | 0, _ => none
  | n + 1, ts => do
    let (condition, ts) ← list? n ts
    let (body, ts) ← list? n (← keyword? "then" ts)
    match keyword? "elif" ts, keyword? "else" ts with
    | some ts, _ =>
      let (otherwise, ts) ← branches? n ts
      return (.branch condition body [otherwise], ts)
    | none, some ts =>
      let (otherwise, ts) ← list? n ts
      Command.followed (.branch condition body otherwise) (← keyword? "fi" ts)
    | none, none => Command.followed (.branch condition body []) (← keyword? "fi" ts)

/-- The cases of a choice up to the closing word. -/
def cases? : Nat → List Token → Option (List (List Word × List Command) × List Token)
  | 0, _ => none
  | n + 1, ts =>
    match keyword? "esac" ts with
    | some rest => some ([], rest)
    | none => do
      let (patterns, ts) ← patterns? (skipSeparators ts)
      let (body, ts) ← list? n ts
      let ts := match skipSeparators ts with
        | .sign ";;" :: rest => rest
        | rest => rest
      let (more, ts) ← cases? n ts
      return ((patterns, body) :: more, ts)

/-- Commands up to a word or sign that closes them. -/
def list? : Nat → List Token → Option (List Command × List Token)
  | 0, _ => none
  | n + 1, ts =>
    match skipSeparators ts with
    | [] => some ([], [])
    | t :: rest =>
      if isSign ";;" t || isSign ")" t || (plainText? t).any fun w =>
          ["do", "done", "then", "elif", "else", "fi", "esac", "\x7d"].contains w then
        some ([], t :: rest)
      else do
        let (c, rest) ← command? n (t :: rest)
        let (cs, rest) ← list? n rest
        return (c :: cs, rest)

end

/-- The commands of a script. -/
def commands? (script : List Char) : Option (List Command) := do
  let ts ← tokens? (script.length + 1) script
  match ← list? (8 * ts.length + 8) ts with
  | (cs, []) => some cs
  | _ => none

end LocalTopology.Shell
