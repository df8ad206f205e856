/-!
# The log of a run
-/

namespace LocalTopology

/-- A line for the log of a run. -/
structure LogLine where
  isWarning : Bool
  text : String
  deriving DecidableEq, Inhabited

end LocalTopology
