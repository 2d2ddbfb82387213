/-
# ImportAudit.Log.Fault — why a record is refused.
-/
import ImportAudit.Text.Quoted

namespace ImportAudit.Log

/-- Why a record or a threshold is refused: a field has the name of a part of every record, a field
has the name of a parameter of the function that logs it, or a threshold is no severity. -/
inductive Fault
  | taken (field : String)
  | repeated (function field : String)
  | noSeverity (text : String)
  | severityType (text : String)
  deriving DecidableEq, Repr

namespace Fault

/-- The name of the kind of fault. -/
def kindName : Fault → String
  | .taken _ => "KeyError"
  | .repeated _ _ | .severityType _ => "TypeError"
  | .noSeverity _ => "ValueError"

/-- The message of a fault. -/
def message : Fault → String
  | .taken field => Text.quoted ("Attempt to overwrite " ++ Text.quoted field ++ " in LogRecord")
  | .repeated function field =>
    "CheckLogger." ++ function ++ "() got multiple values for argument '" ++ field ++ "'"
  | .noSeverity text => "Unknown level: " ++ Text.quoted text
  | .severityType text => "Level not an integer or a valid string: " ++ text

end Fault

end ImportAudit.Log
