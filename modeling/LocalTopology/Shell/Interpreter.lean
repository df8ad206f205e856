import LocalTopology.Map.Ordered
import LocalTopology.Process.Program
import LocalTopology.Shell.Arithmetic
import LocalTopology.Shell.Filter
import LocalTopology.Shell.Pattern
import LocalTopology.Shell.Script
import LocalTopology.Text.Lossy

/-!
# Running scripts

A script is run on a tree of files. It writes to its streams and ends with a code, by a signal, or
never. A script that pauses can be stopped there: it is asked to terminate, and what it set aside
for that is run first.
-/

namespace LocalTopology.Shell

/-- A script while it runs. -/
structure Run where
  files : FileTree
  directory : String
  stop : Stop
  /-- The name that the script goes by. -/
  name : String
  arguments : List String
  /-- The values of its variables. -/
  settings : Registry String := ∅
  /-- What it can read. -/
  input : List UInt8 := []
  writings : Array Writing := #[]
  status : Nat := 0
  /-- Whether something runs beside it that it has not waited for. -/
  hasJob : Bool := false
  /-- Whether it has been asked to terminate. -/
  isAsked : Bool := false
  /-- What is run when the script is asked to terminate; an empty text means that it goes on. -/
  onTermination : Option String := none
  deriving Inhabited

/-- A part of a run, which may end it. -/
abbrev Action (α : Type) := ExceptT ProgramEnd (StateM Run) α

/-- Writes bytes to a stream. -/
def writeBytes (stream : OutputStream) (bytes : List UInt8) : Action Unit :=
  modify fun r => { r with writings := r.writings.push ⟨stream, bytes⟩ }

/-- Writes a text to a stream. -/
def write (stream : OutputStream) (text : String) : Action Unit :=
  writeBytes stream text.toUTF8.toList

/-- Ends a command with a status. -/
def finish (status : Nat) : Action Unit :=
  modify fun r => { r with status }

/-- Whether the script is to terminate. -/
def Run.isStopped (r : Run) : Bool :=
  r.stop.holds (outputLines r.writings.toList)

/-- The value of a parameter. -/
def Run.value (r : Run) (name : String) : String :=
  match name with
  | "0" => r.name
  | "?" => toString r.status
  | "#" => toString r.arguments.length
  | "$" => "4000"
  | "@" => " ".intercalate r.arguments
  | "*" => " ".intercalate r.arguments
  | _ =>
    match Text.readNat? name.toList with
    | some n => (r.arguments[n - 1]?).getD ""
    | none =>
      match r.settings.get? name with
      | some value => value
      | none => if name = "PWD" then r.directory else ""

/-- The parts of an expanded word: text with quotes, text without, or the end of a field. -/
inductive Expanded
  | quoted (text : List Char)
  | bare (text : List Char)
  | endOfField
  deriving Inhabited

/-- The fields of some parts; parts without quotes that hold nothing make no field. -/
def fields (current : Option (List Char)) : List Expanded → List String
  | [] => current.toList.map String.ofList
  | .quoted text :: parts => fields (some (current.getD [] ++ text)) parts
  | .bare [] :: parts => fields current parts
  | .bare text :: parts => fields (some (current.getD [] ++ text)) parts
  | .endOfField :: parts => current.toList.map String.ofList ++ fields none parts

/-- A text without quotes, with the ends of the fields in it. -/
def splitFields (text : List Char) : List Expanded :=
  let isGap (c : Char) := c == ' ' || c == '\t' || c == '\n'
  let pieces := text.splitBy fun a b => isGap a == isGap b
  pieces.map fun piece => if piece.any isGap then .endOfField else .bare piece

/-- The text of all parts. -/
def Expanded.joined (parts : List Expanded) : List Char :=
  parts.flatMap fun part => match part with
    | .quoted text => text
    | .bare text => text
    | .endOfField => [' ']

/-- The pattern that parts make: only a character without quotes has a meaning of its own. -/
def Expanded.pattern (parts : List Expanded) : List PatternPart :=
  parts.flatMap fun part => match part with
    | .quoted text => text.map .character
    | .bare text => text.map .ofChar
    | .endOfField => [.character ' ']

/-- The characters that escapes in a text stand for, as bytes, in so many steps; nothing follows
where the text says so. -/
def unescapeBytes (isFormat : Bool) : Nat → List Char → List UInt8
  | 0, _ => []
  | _, [] => []
  | n + 1, '\\' :: c :: cs =>
    let isOctal (c : Char) := '0' ≤ c && c ≤ '7'
    let octal (cs : List Char) : List UInt8 :=
      let digits := (cs.takeWhile isOctal).take 3
      UInt8.ofNat (Text.digitsValue 8 Text.digitValue 0 digits) ::
        unescapeBytes isFormat n (cs.drop digits.length)
    match c with
    | 'n' => 10 :: unescapeBytes isFormat n cs
    | 't' => 9 :: unescapeBytes isFormat n cs
    | 'r' => 13 :: unescapeBytes isFormat n cs
    | 'a' => 7 :: unescapeBytes isFormat n cs
    | 'b' => 8 :: unescapeBytes isFormat n cs
    | 'f' => 12 :: unescapeBytes isFormat n cs
    | 'v' => 11 :: unescapeBytes isFormat n cs
    | '\\' => 92 :: unescapeBytes isFormat n cs
    | 'c' => []
    | '0' => if isFormat then octal (c :: cs) else octal cs
    | c =>
      if isFormat && isOctal c then octal (c :: cs)
      else 92 :: c.toString.toUTF8.toList ++ unescapeBytes isFormat n cs
  | n + 1, c :: cs => c.toString.toUTF8.toList ++ unescapeBytes isFormat n cs

/-- How an argument is put into a format. -/
structure Placement where
  isLeft : Bool := false
  hasZeros : Bool := false
  width : Nat := 0
  /-- How many characters of the argument are taken at most. -/
  limit : Option Nat := none
  kind : Char := 's'
  deriving Inhabited

/-- The placement behind a percent sign, and what follows it. -/
def placement? (cs : List Char) : Option (Placement × List Char) :=
  let flags := cs.takeWhile fun c => c == '-' || c == '0'
  let cs := cs.drop flags.length
  let width := cs.takeWhile Char.isDigit
  let (limit, cs) := match cs.drop width.length with
    | '.' :: cs =>
      let digits := cs.takeWhile Char.isDigit
      (some ((Text.readNat? digits).getD 0), cs.drop digits.length)
    | cs => (none, cs)
  match cs with
  | kind :: rest =>
    some (⟨flags.contains '-', flags.contains '0', (Text.readNat? width).getD 0, limit, kind⟩, rest)
  | [] => none

/-- The bytes of an argument in its place. -/
def Placement.fill (p : Placement) (argument : Option String) : List UInt8 :=
  let argument := argument.getD (if p.kind = 'd' then "0" else "")
  let bytes := if p.kind = 'b' then unescapeBytes false (argument.length + 1) argument.toList
    else ((p.limit.elim argument fun n => String.ofList (argument.toList.take n))).toUTF8.toList
  let missing := p.width - bytes.length
  if p.isLeft then bytes ++ List.replicate missing 32
  else List.replicate missing (if p.hasZeros && p.kind = 'd' then 48 else 32) ++ bytes

/-- The bytes of a format with arguments put in, and the arguments left, in so many steps. -/
def formatBytes : Nat → List Char → List String → List UInt8 × List String
  | 0, _, args => ([], args)
  | n + 1, cs, args =>
    let plain := cs.takeWhile (· ≠ '%')
    let bytes := unescapeBytes true (plain.length + 1) plain
    match cs.dropWhile (· ≠ '%') with
    | '%' :: '%' :: rest =>
      let (more, args) := formatBytes n rest args
      (bytes ++ 37 :: more, args)
    | '%' :: rest =>
      match placement? rest with
      | some (p, rest) =>
        let (more, left) := formatBytes n rest args.tail
        (bytes ++ p.fill args.head? ++ more, left)
      | none => (bytes ++ [37], args)
    | _ => (bytes, args)

/-- The bytes of a format that is used until no arguments are left, in so many rounds. -/
def formatAll : Nat → List Char → List String → List UInt8
  | 0, _, _ => []
  | n + 1, cs, args =>
    match formatBytes (cs.length + 1) cs args with
    | (bytes, []) => bytes
    | (bytes, left) => if left.length = args.length then bytes else bytes ++ formatAll n cs left

/-- Whether a test holds. -/
def test (r : Run) (words : List String) : Bool :=
  let number (s : String) : Int := s.toInt?.getD 0
  let path (s : String) := Path.join r.directory s
  match words with
  | [a, "=", b] => a == b
  | [a, "!=", b] => a != b
  | [a, "-eq", b] => number a == number b
  | [a, "-ne", b] => number a != number b
  | [a, "-lt", b] => number a < number b
  | [a, "-le", b] => number a ≤ number b
  | [a, "-gt", b] => number a > number b
  | [a, "-ge", b] => number a ≥ number b
  | ["-z", a] => a.isEmpty
  | ["-n", a] => !a.isEmpty
  | ["-f", a] => r.files.isFile (path a)
  | ["-e", a] => r.files.isThere (path a)
  | ["-d", a] => r.files.isThere (path a) && !r.files.isFile (path a)
  | [a] => !a.isEmpty
  | _ => false

/-- The numbers from one to another, as lines. -/
def sequenceLines (first last : Nat) : String :=
  String.join ((List.range (last + 1 - first)).map fun k => toString (first + k) ++ "\n")

/-- A change of the files, or the complaint of a command about a path. -/
def change (command path : String) (act : FileTree → Except SystemFault FileTree) :
    Action Unit := do
  match act (← get).files with
  | .ok files => modify fun r => { r with files, status := 0 }
  | .error fault =>
    write .errors s!"{command}: {path}: {fault.words}\n"
    finish 1

/-- Writes a file to the output of a script. -/
def showFile (argument : String) : Action Unit := do
  let r ← get
  match r.files.read (Path.join r.directory argument) with
  | .ok content => writeBytes .output content.toList
  | .error fault =>
    write .errors s!"cat: {argument}: {fault.words}\n"
    finish 1

/-- Writes its arguments with spaces between them and a line feed behind. -/
def echo (args : List String) : Action Unit := do
  let (isOpen, args) := match args with
    | "-n" :: rest => (true, rest)
    | rest => (false, rest)
  let text := (" ".intercalate args).toList
  let bytes := unescapeBytes false (text.length + 1) text ++ (if isOpen then [] else [10])
  writeBytes .output bytes
  finish 0

/-- Puts an end to what would otherwise go on for ever. -/
def bounded (rounds : Nat) (round : Action Bool) : Action Unit :=
  match rounds with
  | 0 => throw .never
  | n + 1 => do if ← round then bounded n round

/-- How many rounds of a loop are taken before it is taken to go on for ever. -/
def roundLimit : Nat := 20000

/-- Where what goes to a stream ends up. -/
inductive Destination
  | stream (target : OutputStream)
  | file (path : String) (appends : Bool)
  deriving Inhabited

/-- Sends on what a command wrote. -/
def send (d : Destination) (bytes : List UInt8) : Action Unit := do
  match d with
  | .stream target => if !bytes.isEmpty then writeBytes target bytes
  | .file "/dev/null" _ => pure ()
  | .file path appends =>
    let r ← get
    let path := Path.join r.directory path
    let before := match r.files.read path with
      | .ok content => if appends then content else ByteArray.empty
      | .error _ => ByteArray.empty
    match r.files.write path (before ++ ⟨bytes.toArray⟩) with
    | .ok files => modify fun r => { r with files }
    | .error _ => finish 1

/-- The bytes of some writings that went to a stream. -/
def bytesOf (stream : OutputStream) (writings : Array Writing) : List UInt8 :=
  writings.toList.flatMap fun w => if w.stream = stream then w.bytes else []

/-- Does something and keeps back what it writes, with the end that it comes to if it does. -/
def capture (act : Action Unit) : Action (Array Writing × Option ProgramEnd) := do
  let before := (← get).writings
  modify fun r => { r with writings := #[] }
  let ended ← try
      act
      pure none
    catch ending => pure (some ending)
  let written := (← get).writings
  modify fun r => { r with writings := before }
  return (written, ended)

/-- Does something that leaves nothing behind but files, what it writes, and a status. -/
def inside (act : Action Unit) : Action Unit := do
  let before ← get
  let restore (r : Run) : Run :=
    { r with
      directory := before.directory
      arguments := before.arguments
      settings := before.settings
      input := before.input
      onTermination := before.onTermination }
  try
    act
    modify restore
  catch ending =>
    modify restore
    match ending with
    | .code status => finish status
    | _ => throw ending

/-- Takes a line off the input; there is none when nothing is left. -/
def takeLine : Action (Option String) := do
  let r ← get
  match byteLines r.input with
  | [] => return none
  | line :: _ =>
    set { r with input := r.input.drop line.length }
    return Text.lossy (line.filter (· ≠ 10))

/-- How many zeros are read where there is no end of them. -/
def zeroLimit : Nat := 200000

/-- The arguments of a filter and what it reads: its last argument can name a file. -/
def Run.operands (r : Run) (args : List String) : List String × List UInt8 :=
  match args.getLast? with
  | some "/dev/zero" => (args.dropLast, List.replicate zeroLimit 0)
  | some path =>
    match r.files.read (Path.join r.directory path) with
    | .ok content => (args.dropLast, content.toList)
    | .error _ => (args, r.input)
  | none => (args, r.input)

/-- Whether a command does nothing but let time pass. -/
def Command.isSleep : Command → Bool
  | .simple (w :: _) => plainText? (.word w) == some "sleep"
  | _ => false

/-- Gives a variable a value. -/
def assign (name value : String) : Action Unit :=
  modify fun r => { r with settings := r.settings.put name value }

/-- A variable and the word that it is given, if a word is of that form. -/
def assignment? (w : Word) : Option (String × Word) :=
  let name := w.takeWhile fun piece => match piece with
    | .text [d] false => isNameChar d
    | _ => false
  let text := String.ofList <| name.flatMap fun piece => match piece with
    | .text cs _ => cs
    | _ => []
  match w.drop name.length with
  | .text ['='] false :: value =>
    if text.toList.head?.any fun c => c.isAlpha || c == '_' then some (text, value) else none
  | _ => none

/-- The names of the request to terminate. -/
def terminationNames : List String := ["TERM", "SIGTERM", "15"]

/-- How often a text is repeated that would otherwise be repeated for ever. -/
def repetitionLimit : Nat := 20000

mutual

/-- Runs commands one after the other, nested at most so deep. -/
def runAll : Nat → List Command → Action Unit
  | 0, _ => throw .never
  | _, [] => pure ()
  | n + 1, c :: cs =>
    match c.lastingRedirects? with
    | some redirects => runOne n (.redirected (.group cs) redirects)
    | none => do
      runOne n c
      runAll n cs

/-- Runs a script that is given as text. -/
def runText : Nat → List Char → Action Unit
  | 0, _ => throw .never
  | n + 1, script =>
    match commands? script with
    | some cs => runAll n cs
    | none => do
      write .errors ((← get).name ++ ": 1: Syntax error\n")
      throw (.code 2)

/-- Expands a word. -/
def expand : Nat → Word → Action (List Expanded)
  | 0, _ => throw .never
  | n + 1, pieces => do
    let parts ← pieces.mapM fun piece => do
      let r ← get
      match piece with
      | .text cs true => return [Expanded.quoted cs]
      | .text cs false => return [.bare cs]
      | .parameter "@" true =>
        return (r.arguments.map fun a => Expanded.quoted a.toList).intersperse .endOfField
      | .parameter name true => return [.quoted (r.value name).toList]
      | .parameter name false => return splitFields (r.value name).toList
      | .value expression =>
        let number (name : String) : Int := (r.value name).toInt?.getD 0
        return [.bare (toString (calculate number expression)).toList]
      | .parameterOr name otherwise true =>
        let value := r.value name
        return [.quoted (if value.isEmpty then otherwise else value.toList)]
      | .parameterOr name otherwise false =>
        let value := r.value name
        return splitFields (if value.isEmpty then otherwise else value.toList)
      | .output script isQuoted =>
        let (written, ended) ← capture (inside (runText n script))
        match ended with
        | some ending => throw ending
        | none => pure ()
        writeBytes .errors (bytesOf .errors written)
        let bytes := bytesOf .output written
        let text := ((Text.lossy bytes).toList.reverse.dropWhile (· == '\n')).reverse
        return if isQuoted then [.quoted text] else splitFields text
    return parts.flatten

/-- Asks the script to terminate if it is to; one that would pause for ever does not go on. -/
def pause : Nat → Bool → Action Unit
  | 0, _ => throw .never
  | n + 1, isEndless => do
    let r ← get
    if r.isStopped then
      set { r with isAsked := true }
      match r.onTermination with
      | none => throw .signal
      | some script => runText n script.toList
    if isEndless then throw .never

/-- Runs a program or a built-in command. -/
def runWords : Nat → List String → Action Unit
  | 0, _ => throw .never
  | _, [] => pure ()
  | n + 1, command :: args =>
    match command with
    | ":" | "true" => finish 0
    | "wait" => do
      if (← get).hasJob then pause n false
      modify fun r => { r with hasJob := false, status := 0 }
    | "false" => finish 1
    | "echo" => echo args
    | "printf" => do
      let format := (args.head?.getD "").toList
      writeBytes .output (formatAll (args.length + 1) format args.tail)
      finish 0
    | "exit" => do
      let r ← get
      match args.head?.map (·.toNat?) with
      | none => throw (.code r.status)
      | some (some status) => throw (.code (status % 256))
      | some none =>
        write .errors (r.name ++ ": 1: exit: Illegal number: " ++ args.headD "" ++ "\n")
        throw (.code 2)
    | "kill" => do
      let isTermination := match args with
        | [_] => true
        | ["-s", name, _] => terminationNames.contains name
        | name :: _ => terminationNames.contains (String.ofList (name.toList.drop 1))
        | [] => false
      match args.head?, (← get).onTermination with
      | some "-0", _ => finish 0
      | _, some script => if isTermination then runText n script.toList else throw .signal
      | _, none => throw .signal
    | "trap" => do
      match args with
      | script :: names =>
        if names.any terminationNames.contains then
          modify fun r => { r with onTermination := if script = "-" then none else some script }
      | [] => pure ()
      finish 0
    | "sleep" => do
      pause n (args.head? == some "infinity")
      finish 0
    | "exec" => do
      if args.isEmpty then finish 0
      else
        modify fun r => { r with onTermination := r.onTermination.filter (·.isEmpty) }
        runWords n args
        throw (.code (← get).status)
    | "cat" => do
      finish 0
      if args.isEmpty then writeBytes .output (← get).input
      args.forM showFile
    | "read" => do
      match ← takeLine with
      | some line =>
        assign (args.headD "REPLY") line
        finish 0
      | none => finish 1
    | "yes" => do
      let line := " ".intercalate (if args.isEmpty then ["y"] else args) ++ "\n"
      (List.range repetitionLimit).forM fun _ => write .output line
      throw .never
    | "seq" => do
      match args.map (·.toNat?.getD 0) with
      | [last] => write .output (sequenceLines 1 last)
      | [first, last] => write .output (sequenceLines first last)
      | _ => pure ()
      finish 0
    | "pwd" => do
      write .output ((← get).directory ++ "\n")
      finish 0
    | "cd" => do
      modify fun r => { r with directory := Path.resolve r.directory (args.head?.getD "/") }
      finish 0
    | "shift" => do
      modify fun r => { r with arguments := r.arguments.tail }
      finish 0
    | "touch" => do
      let r ← get
      args.forM fun a => change command a fun t =>
        let path := Path.join r.directory a
        if t.isThere path then .ok t else t.write path ByteArray.empty
    | "mkdir" => do
      let r ← get
      (args.filter (· != "-p")).forM fun a =>
        change command a (·.makeDirectories (Path.join r.directory a))
    | "rm" => do
      let r ← get
      (args.filter fun a => a.toList.head? != some '-').forM fun a =>
        change command a (·.removeAll (Path.join r.directory a))
    | "[" => do finish (if test (← get) args.dropLast then 0 else 1)
    | "test" => do finish (if test (← get) args then 0 else 1)
    | "export" => do
      args.forM fun a => match Text.cutFirst? '=' a.toList with
        | some (name, value) => assign (String.ofList name) (String.ofList value)
        | none => pure ()
      finish 0
    | "basename" => do
      let path := args.headD ""
      write .output ((Path.fileName? path).getD path ++ "\n")
      finish 0
    | "dirname" => do
      let parent := (Path.parent? (args.headD "")).getD "/"
      write .output ((if parent.isEmpty then "." else parent) ++ "\n")
      finish 0
    | "ls" => do
      let r ← get
      let names := r.files.namesIn (Path.join r.directory (args.headD "."))
      write .output (String.join (names.map (· ++ "\n")))
      finish 0
    | _ => do
      let r ← get
      let (args, input) := r.operands args
      match filterOutput? command args input with
      | some bytes =>
        writeBytes .output bytes
        finish 0
      | none =>
        write .errors (r.name ++ s!": 1: {command}: not found\n")
        finish 127

/-- Runs a command. -/
def runOne : Nat → Command → Action Unit
  | 0, _ => throw .never
  | n + 1, .group body => runAll n body
  | n + 1, .inside body => inside (runAll n body)
  | n + 1, .negate body => do
    runOne n body
    finish (if (← get).status == 0 then 1 else 0)
  | n + 1, .pipe first second => do
    let (written, ended) ← capture (inside (runOne n first))
    match ended with
    | some .signal => throw .signal
    | _ => pure ()
    writeBytes .errors (bytesOf .errors written)
    modify fun r => { r with input := bytesOf .output written }
    inside (runOne n second)
    modify fun r => { r with input := [] }
  | n + 1, .beside body => do
    if body.isSleep then modify fun r => { r with hasJob := true } else inside (runOne n body)
    finish 0
  | n + 1, .chain onSuccess first second => do
    runOne n first
    if ((← get).status == 0) == onSuccess then runOne n second
  | n + 1, .forEach name items body => do
    let values := (← items.mapM (expand n)).flatMap (fields none)
    values.forM fun value => do
      assign name value
      runAll n body
  | n + 1, .loop whileSuccess condition body =>
    bounded roundLimit do
      runAll n condition
      if ((← get).status == 0) != whileSuccess then
        finish 0
        return false
      runAll n body
      return true
  | n + 1, .branch condition body otherwise => do
    runAll n condition
    if (← get).status == 0 then runAll n body
    else
      finish 0
      runAll n otherwise
  | n + 1, .choose subject cases => do
    let text := Expanded.joined (← expand n subject)
    let chosen ← cases.findM? fun (patterns, _) => patterns.anyM fun p => do
      return isMatch (Expanded.pattern (← expand n p)) text
    match chosen with
    | some (_, c :: cs) => runAll n (c :: cs)
    | _ => finish 0
  | n + 1, .simple words => do
    let assignments := (words.map assignment?).takeWhile (·.isSome)
    for (name, value) in assignments.filterMap id do
      assign name (String.ofList (Expanded.joined (← expand n value)))
      finish 0
    runWords n ((← (words.drop assignments.length).mapM (expand n)).flatMap (fields none))
  | n + 1, .redirected body redirects => do
    let input := (← get).input
    let pathOf (w : Word) : Action String := do
      return String.ofList (Expanded.joined (← expand n w))
    let destinations ← redirects.foldlM (fun (one, two) redirect => do
      let pick (k : Nat) : Destination := if k = 2 then two else one
      match redirect with
      | .toStream 2 target => return (one, pick target)
      | .toStream _ target => return (pick target, two)
      | .toFile 2 appends path => return (one, .file (← pathOf path) appends)
      | .toFile _ appends path => return (.file (← pathOf path) appends, two)
      | .fromFile path =>
        let r ← get
        let content := r.files.read (Path.join r.directory (← pathOf path))
        set { r with input := (content.toOption.getD ByteArray.empty).toList }
        return (one, two))
      ((.stream .output, .stream .errors) : Destination × Destination)
    let (written, ended) ← capture (runOne n body)
    modify fun r => { r with input }
    send destinations.1 (bytesOf .output written)
    send destinations.2 (bytesOf .errors written)
    match ended with
    | some ending => throw ending
    | none => pure ()

end

/-- How deep a script may nest. -/
def nestingLimit (script : List Char) : Nat := 20 * script.length + 100

/-- Runs a script to its end. -/
def run (script : String) (start : Run) : ProgramOutcome :=
  let limit := nestingLimit script.toList
  let endless := pause limit true
  let action : Action Unit := do
    try runText limit script.toList
    catch
      | .never => endless
      | ending => throw ending
    throw (.code (← get).status)
  match action start with
  | (.error ending, r) => ⟨r.writings.toList, ending, r.isAsked, r.files⟩
  | (.ok _, r) => ⟨r.writings.toList, .code r.status, r.isAsked, r.files⟩

end LocalTopology.Shell
