/-
# ImportAudit.Fault — everything that can go wrong.

Each part of the library has faults of its own.  A fault brings them together, names its kind and
words a message.  Some kinds are faults of a value that was read or given, and a run that checks
many files goes on after those.
-/
import ImportAudit.Check.Options
import ImportAudit.Data.Misuse
import ImportAudit.Files.Fault
import ImportAudit.Json.Reader
import ImportAudit.Log.Fault
import ImportAudit.Text.Utf8
import ImportAudit.Toml.Fault
import ImportAudit.Yaml.Fault

namespace ImportAudit

/-- What went wrong. -/
inductive Fault
  | json (fault : Json.Fault) (text : List Char)
  | encoding (fault : Text.Utf8.Fault)
  | files (fault : Files.Fault)
  | toml (fault : Toml.Fault)
  | yaml (fault : Yaml.Fault)
  | options (fault : OptionFault)
  | unreadable (path : String) (fault : Files.Fault)
  | misuse (fault : Misuse)
  | log (fault : Log.Fault)
  | markup (tag : String) (position : Nat)
  | noOpenTag (position : Nat)
  | usage (message : String)
  | raised (kind : String) (arguments : List Value)
  deriving Repr

namespace Fault

/-- The name of the kind of JSON fault. -/
def jsonKind : Json.Fault → String
  | .malformed _ _ => "JSONDecodeError"
  | .longInteger _ => "ValueError"
  | .tooDeep _ => "RecursionError"

/-- The name of the kind of fault that is told of with the given arguments: a refusal of the system
is known by its number. -/
def raisedKind (kind : String) (arguments : List Value) : String :=
  if kind = "OSError" ∨ kind = "IOError" ∨ kind = "EnvironmentError" then
    match arguments with
    | .int n :: _ :: _ => if 0 ≤ n then Files.kindOfNumber n.toNat else "OSError"
    | _ => "OSError"
  else kind

/-- The name of the kind of fault. -/
def kindName : Fault → String
  | .json fault _ => jsonKind fault
  | .encoding _ => "UnicodeDecodeError"
  | .files fault => fault.kindName
  | .toml fault => fault.kindName
  | .yaml fault => fault.kindName
  | .options _ | .unreadable _ _ => "ValueError"
  | .misuse fault => fault.kindName
  | .log fault => fault.kindName
  | .markup _ _ | .noOpenTag _ => "MarkupError"
  | .usage _ => "UsageError"
  | .raised kind arguments => raisedKind kind arguments

/-- The kinds of fault that are refusals of the system. -/
def systemKinds : List String :=
  ["OSError", "IOError", "EnvironmentError", "PermissionError", "FileNotFoundError",
    "ProcessLookupError", "InterruptedError", "ChildProcessError", "BlockingIOError",
    "FileExistsError", "NotADirectoryError", "IsADirectoryError", "BrokenPipeError",
    "ConnectionError", "ConnectionAbortedError", "ConnectionResetError",
    "ConnectionRefusedError", "TimeoutError"]

/-- The message of a fault that is told of with arguments: one argument speaks for itself, a
missing key is quoted, a refusal of the system has a number, and others are listed. -/
def raisedMessage (kind : String) (arguments : List Value) : String :=
  match arguments with
  | [] => ""
  | [v] => if kind = "KeyError" then v.nested else v.plain
  | n :: text :: more =>
    if systemKinds.contains kind then
      "[Errno " ++ n.plain ++ "] " ++ text.plain ++
        (match more with
          | [] => ""
          | path :: _ => ": " ++ path.nested)
    else "(" ++ Value.nestedItems arguments ++ ")"

/-- The message of a fault. -/
def message : Fault → String
  | .json fault text => fault.message text
  | .encoding fault => fault.message
  | .files fault => fault.message
  | .toml fault => fault.message
  | .yaml fault => fault.message
  | .options fault => fault.message
  | .unreadable path fault =>
    if fault.refusal = .denied then "Permission denied reading file: " ++ path
    else "Error reading file " ++ path ++ ": " ++ fault.message
  | .misuse fault => fault.message
  | .log fault => fault.message
  | .markup tag position =>
    "closing tag '" ++ tag ++ "' at position " ++ toString position ++
      " doesn't match any open tag"
  | .noOpenTag position =>
    "closing tag '[/]' at position " ++ toString position ++ " has nothing to close"
  | .usage message => message
  | .raised kind arguments => raisedMessage kind arguments

/-- A fault of a value that was read or given. -/
def isOfValue : Fault → Bool
  | .json (.malformed _ _) _ | .json (.longInteger _) _ => true
  | .encoding _ | .options _ | .unreadable _ _ => true
  | .toml (.at _ _ _ _) => true
  | .log (.noSeverity _) => true
  | _ => false

end Fault

end ImportAudit
