import LocalTopology.Duration
import LocalTopology.Network.Dispatch
import LocalTopology.Text.Cut

/-!
# Command lines

A command line names a command and its options. An option is long, as in `--file a` and `--file=a`,
or short, as in `-f a` and `-fa`. A value that stands in a word of its own is waited for: what is
wrong with it shows only when the next option comes, or the end.
-/

namespace LocalTopology.Command

/-- How a topology is run. -/
structure RunOptions where
  files : List String := []
  remoteEnvironment : Option String := none
  timeout : Duration := .ofSeconds 300
  proxyPort : Port := standardProxyPort
  probesAll : Bool := false
  isDryRun : Bool := false
  deriving DecidableEq, Inhabited

/-- What is to be done. -/
inductive Request
  | run (options : RunOptions)
  | validate (files : List String)
  deriving DecidableEq, Inhabited

/-- Why there is nothing to be done: help is asked for, or the command line is not understood. -/
inductive UsageFault
  | helpAsked
  | nothingAsked
  | unknownCommand
  | unknownArgument
  | needlessValue
  | missingValue
  | refusedValue
  | repeated
  deriving DecidableEq, Inhabited

/-- An option. -/
inductive Setting
  | file
  | remoteEnvironment
  | timeout
  | proxyPort
  | probeAll
  | dryRun
  | help
  deriving DecidableEq, Inhabited

namespace Setting

/-- The option of a long name. -/
def ofLong? : String → Option Setting
  | "file" => some file
  | "remote-env" => some remoteEnvironment
  | "timeout" => some timeout
  | "proxy-port" => some proxyPort
  | "probe-all" => some probeAll
  | "dry-run" => some dryRun
  | "help" => some help
  | _ => none

/-- The option of a letter. -/
def ofShort? : Char → Option Setting
  | 'f' => some file
  | 'h' => some help
  | _ => none

/-- Whether a value belongs to the option. -/
def takesValue : Setting → Bool
  | file => true
  | remoteEnvironment => true
  | timeout => true
  | proxyPort => true
  | _ => false

/-- Whether the option can be given more than once. -/
def isRepeatable : Setting → Bool
  | file => true
  | _ => false

end Setting

/-- Reads a port: a number of 16 bits, after a sign or not. -/
def readPort? (text : String) : Option Port :=
  let (isNegative, digits) := match text.toList with
    | '-' :: rest => (true, rest)
    | '+' :: rest => (false, rest)
    | rest => (false, rest)
  match Text.readNat? digits with
  | some n => if n < Nat.pow 2 16 ∧ (isNegative → n = 0) then some (UInt16.ofNat n) else none
  | none => none

/-- The options with one more of them set. -/
def RunOptions.set (o : RunOptions) (setting : Setting) (value : String) :
    Except UsageFault RunOptions :=
  match setting with
  | .file =>
    if value.isEmpty then .error .missingValue else .ok { o with files := o.files ++ [value] }
  | .remoteEnvironment => .ok { o with remoteEnvironment := some value }
  | .timeout =>
    match Duration.parse? value with
    | some timeout => .ok { o with timeout }
    | none => .error .refusedValue
  | .proxyPort =>
    match readPort? value with
    | some proxyPort => .ok { o with proxyPort }
    | none => .error .refusedValue
  | .probeAll => .ok { o with probesAll := true }
  | .dryRun => .ok { o with isDryRun := true }
  | .help => .error .helpAsked

/-- What has been read of the options of a command. -/
structure Reading where
  options : RunOptions := {}
  given : List Setting := []
  /-- An option that has not been set yet, and its value if that has come. -/
  pending : Option (Setting × Option String) := none
  deriving Inhabited

namespace Reading

/-- Sets an option. -/
def set (r : Reading) (setting : Setting) (value : Option String) : Except UsageFault Reading :=
  if setting.takesValue && value.isNone then .error .missingValue
  else if !setting.isRepeatable && r.given.contains setting then .error .repeated
  else do
    let options ← r.options.set setting (value.getD "")
    return { r with options, given := setting :: r.given }

/-- Sets the option that waits for it. -/
def settle (r : Reading) : Except UsageFault Reading :=
  match r.pending with
  | none => .ok r
  | some (setting, value) => { r with pending := none }.set setting value

/-- Takes up an option, with a value that is written next to it or none. -/
def takeUp (r : Reading) (setting : Setting) (value : Option String) :
    Except UsageFault Reading := do
  let r ← r.settle
  if setting.takesValue && value.isNone then return { r with pending := some (setting, none) }
  else r.set setting value

/-- A name and the value behind the first equals sign. -/
def nameAndValue (cs : List Char) : String × Option String :=
  match Text.cutFirst? '=' cs with
  | some (name, value) => (String.ofList name, some (String.ofList value))
  | none => (String.ofList cs, none)

/-- Reads the letters behind a hyphen; what follows a letter that takes a value is the value. -/
def letters (r : Reading) (known : List Setting) (cs : List Char) : Except UsageFault Reading :=
  match cs with
  | [] => .ok r
  | c :: rest =>
    match (Setting.ofShort? c).filter known.contains with
    | none => .error .unknownArgument
    | some setting =>
      if setting.takesValue then
        r.takeUp setting <| match rest with
          | [] => none
          | '=' :: value => some (String.ofList value)
          | value => some (String.ofList value)
      else do (← r.takeUp setting none).letters known rest

/-- Reads one word of a command that knows certain options. -/
def word (r : Reading) (known : List Setting) (text : String) : Except UsageFault Reading :=
  match text.toList with
  | '-' :: '-' :: cs =>
    let (name, value) := nameAndValue cs
    match (Setting.ofLong? name).filter known.contains with
    | none => .error .unknownArgument
    | some setting =>
      if !setting.takesValue && value.isSome then .error .needlessValue
      else r.takeUp setting value
  | '-' :: c :: cs => r.letters known (c :: cs)
  | _ =>
    match r.pending with
    | some (setting, none) => .ok { r with pending := some (setting, some text) }
    | _ => .error .unknownArgument

/-- Reads the words of a command; none may follow two hyphens on their own. -/
def words (r : Reading) (known : List Setting) : List String → Except UsageFault Reading
  | [] => r.settle
  | "--" :: rest => if rest.isEmpty then r.settle else .error .unknownArgument
  | text :: rest => do (← r.word known text).words known rest

end Reading

/-- The options of a run. -/
def runSettings : List Setting :=
  [.file, .remoteEnvironment, .timeout, .proxyPort, .probeAll, .dryRun, .help]

/-- The options of a validation. -/
def validateSettings : List Setting := [.file, .help]

/-- The commands. -/
def commandNames : List String := ["run", "validate", "help"]

/-- The outcome of asking for help about a command. -/
def helpAbout : List String → UsageFault
  | [] => .helpAsked
  | [name] => if commandNames.contains name then .helpAsked else .unknownCommand
  | _ => .unknownCommand

/-- Reads a command line. -/
def Request.ofArguments : List String → Except UsageFault Request
  | [] => .error .nothingAsked
  | "run" :: rest => do return .run (← Reading.words {} runSettings rest).options
  | "validate" :: rest => do
    return .validate (← Reading.words {} validateSettings rest).options.files
  | "help" :: rest => .error (helpAbout rest)
  | "--" :: rest =>
    match rest with
    | [] => .error .nothingAsked
    | name :: _ => .error (if commandNames.contains name then .unknownArgument else .unknownCommand)
  | text :: _ =>
    match text.toList with
    | '-' :: _ :: _ =>
      match Reading.word {} [.help] text with
      | .ok _ => .error .helpAsked
      | .error fault => .error fault
    | _ => .error .unknownCommand

end LocalTopology.Command
