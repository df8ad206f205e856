/-!
# Lines of output

What a tool writes to one of its streams is passed on line by line. A line ends at a line feed, a
carriage return before it is left out, and the last line need not end. A line that is no text ends
the passing on.
-/

namespace LocalTopology

/-- A stream that a tool writes to. -/
inductive OutputStream
  | output
  | errors
  deriving DecidableEq, Inhabited

/-- The name of the stream. -/
def OutputStream.name : OutputStream → String
  | output => "stdout"
  | errors => "stderr"

/-- What is taken up of a stream. -/
structure Pump where
  /-- The bytes of the line that has not ended yet, the newest first. -/
  pending : List UInt8 := []
  /-- Whether lines are still passed on. -/
  isOpen : Bool := true
  deriving DecidableEq, Inhabited

namespace Pump

/-- The bytes of a line, the newest first, without the carriage return at its end. -/
def dropReturn : List UInt8 → List UInt8
  | 13 :: bytes => bytes
  | bytes => bytes

/-- Passes on the text of a line, or nothing from here on. -/
def pass (newestFirst : List UInt8) : Option String × Pump :=
  match String.fromUTF8? ⟨newestFirst.reverse.toArray⟩ with
  | some line => (some line, {})
  | none => (none, { isOpen := false })

/-- Takes up a byte and passes on the line that it ends. -/
def feed (p : Pump) (byte : UInt8) : Option String × Pump :=
  if !p.isOpen then (none, p)
  else if byte = 10 then pass (dropReturn p.pending)
  else (none, { p with pending := byte :: p.pending })

/-- Passes on the line that has not ended when the stream does. -/
def finish (p : Pump) : Option String :=
  if p.isOpen && !p.pending.isEmpty then (pass p.pending).1 else none

/-- The lines that are passed on from here. -/
def linesFrom (p : Pump) : List UInt8 → List String
  | [] => p.finish.toList
  | byte :: bytes =>
    let (line, next) := p.feed byte
    line.toList ++ linesFrom next bytes

/-- The lines that are passed on of a stream. -/
def lines (bytes : List UInt8) : List String :=
  linesFrom {} bytes

end Pump

/-- A line of output and the stream that it was written to. -/
structure OutputLine where
  stream : OutputStream
  text : String
  deriving DecidableEq, Inhabited

/-- Something written to a stream. -/
structure Writing where
  stream : OutputStream
  bytes : List UInt8
  deriving DecidableEq, Inhabited

/-- What is taken up of both streams, and the lines that were passed on, the newest first. -/
structure PumpPair where
  output : Pump := {}
  errors : Pump := {}
  passed : List OutputLine := []
  deriving DecidableEq, Inhabited

namespace PumpPair

/-- Passes on a line of a stream, if there is one. -/
def pass (p : PumpPair) (stream : OutputStream) (line : Option String) : PumpPair :=
  { p with passed := (line.map (OutputLine.mk stream)).toList ++ p.passed }

/-- Takes up a byte of a stream. -/
def feed (p : PumpPair) : OutputStream × UInt8 → PumpPair
  | (.output, byte) =>
    let (line, output) := p.output.feed byte
    { p with output }.pass .output line
  | (.errors, byte) =>
    let (line, errors) := p.errors.feed byte
    { p with errors }.pass .errors line

/-- All lines when both streams have ended. -/
def finish (p : PumpPair) : List OutputLine :=
  ((p.pass .output p.output.finish).pass .errors p.errors.finish).passed.reverse

end PumpPair

/-- The lines of both streams, in the order in which they end. -/
def outputLines (writings : List Writing) : List OutputLine :=
  ((writings.flatMap fun w => w.bytes.map (w.stream, ·)).foldl PumpPair.feed {}).finish

end LocalTopology
