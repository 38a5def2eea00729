/-!
# Severity of notices

Operations report what they did and what they ignored as notices. A warning tells of input that
had no effect; the other two levels tell of progress.
-/

namespace GameSetup

/-- How important a notice is. -/
inductive Severity where
  | debug
  | info
  | warn
  deriving DecidableEq, Repr

/-- The name that stands before a notice. -/
def Severity.name : Severity → String
  | .debug => "DEBUG"
  | .info => "INFO"
  | .warn => "WARN"

end GameSetup
