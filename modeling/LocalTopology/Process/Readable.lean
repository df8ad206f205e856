import LocalTopology.Json.Read
import LocalTopology.Log

/-!
# Readable output

The supervisor writes its lines as objects in JSON. Of such a line the message is shown, behind the
name of the process that it came from; every other line is shown as it is.
-/

namespace LocalTopology

/-- A line of output as it is shown. -/
def readableLine (line : String) : String :=
  if line.toList.head? = some '{' then
    match Json.read? line with
    | none => line
    | some v =>
      match v.text? "message", v.text? "process" with
      | some message, some process => s!"[{process}] {message}"
      | some message, none => message
      | none, _ => line
  else line

/-- What is logged for a line of output. -/
def logOutput (line : String) : LogLine :=
  ⟨false, readableLine line⟩

/-- What is logged when a tool fails, after the newest lines of its output. -/
def logReplay (tool : String) (lines : List String) : List LogLine :=
  if lines.isEmpty then [⟨true, s!"{tool} produced no output before exiting"⟩]
  else
    ⟨true, s!"Last {lines.length} lines of {tool} output:"⟩ ::
      lines.map fun line => ⟨true, "  " ++ readableLine line⟩

end LocalTopology
