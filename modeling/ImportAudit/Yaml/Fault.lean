/-
# ImportAudit.Yaml.Fault — what can be wrong with a YAML document.
-/
import ImportAudit.Text.Quoted

namespace ImportAudit.Yaml

/-- The stages of reading a document at which a fault can be found. -/
inductive Stage
  | characters
  | tokens
  | shape
  | nodes
  | values
  | conversion
  | name
  | emptiness
  | form
  deriving DecidableEq, Repr

/-- Why a document was not read: the stage, what is wrong, and the line and column, both counted
from zero. -/
structure Fault where
  stage : Stage
  complaint : String
  line : Nat := 0
  column : Nat := 0
  deriving DecidableEq, Repr

namespace Fault

/-- The name of the kind of fault. -/
def kindName (f : Fault) : String :=
  match f.stage with
  | .characters => "ReaderError"
  | .tokens => "ScannerError"
  | .shape => "ParserError"
  | .nodes => "ComposerError"
  | .values => "ConstructorError"
  | .conversion => "ValueError"
  | .name => "KeyError"
  | .emptiness => "IndexError"
  | .form => "AttributeError"

/-- The document itself is at fault, not a value that one of its scalars stands for. -/
def isOfDocument (f : Fault) : Bool :=
  !([Stage.conversion, .name, .emptiness, .form].contains f.stage)

/-- The message of a fault. -/
def message (f : Fault) : String :=
  match f.stage with
  | .conversion | .emptiness | .form => f.complaint
  | .name => Text.quoted f.complaint
  | _ =>
    f.complaint ++ ": line " ++ toString (f.line + 1) ++ ", column " ++ toString (f.column + 1)

end Fault

end ImportAudit.Yaml
