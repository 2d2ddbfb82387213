/-
# ImportAudit.Log.Logger — a component's logger.

A logger has a threshold, a form in which it writes, and a context that goes with every record:
which file is being checked, and in which run.
-/
import ImportAudit.Log.Record

namespace ImportAudit.Log

/-- A logger. -/
structure Logger where
  component : String
  threshold : Option Severity := some .warning
  json : Bool := true
  context : List (String × Value) := []

namespace Logger

/-- The context of a check: the run and the file, as far as they are given. -/
def contextOf (filePath runId : Value) : List (String × Value) :=
  (if runId.truthy then [("run_id", runId)] else []) ++
    (if filePath.truthy then [("file_path", filePath)] else [])

/-- The logger with another context. -/
def withContext (l : Logger) (filePath runId : Value) : Logger :=
  { l with context := contextOf filePath runId }

/-- The logger without a context. -/
def cleared (l : Logger) : Logger := { l with context := [] }

/-- The logger with the form of JSON or that of plain lines. -/
def writing (l : Logger) (json : Bool) : Logger := { l with json }

/-- The logger lets records of a severity through. -/
def admits (l : Logger) (s : Severity) : Bool := (l.threshold.getD .warning).rank ≤ s.rank

/-- The fields of a record: the kind of event, the context, and the fields given. -/
def fieldsFor (l : Logger) (event : String) (fields : List (String × Value)) :
    List (String × Value) :=
  putAll (putAll [("event_type", .text event)] l.context) fields

/-- The line of a record, in the form of the logger. -/
def lineFor (l : Logger) (r : Record) : String := if l.json then r.jsonLine else r.plainLine

/-- The fault of a field that is named like a parameter of the function that logs it. -/
def repeated? (function : String) (fields : List (String × Value)) : Option Fault :=
  match fields.find? fun f => f.1 = "self" ∨ f.1 = "event_type" with
  | some f => some (.repeated function f.1)
  | none => if fields.any fun f => f.1 = "level" then some (.repeated "_log" "level") else none

/-- The lines that an event with admissible fields makes: one, or none if it is below the threshold
or has no words. -/
def emit (l : Logger) (clock : Clock) (s : Severity) (event : String)
    (fields : List (String × Value)) : List String :=
  if !l.admits s || fields.any (fun f => f.1 = wordless) then []
  else [l.lineFor ⟨clock, s, l.component, event, l.fieldsFor event fields⟩]

/-- The lines that an event makes, if its fields are admissible. -/
def event (l : Logger) (clock : Clock) (s : Severity) (event : String)
    (fields : List (String × Value)) : Except Fault (List String) :=
  match repeated? s.name.toLower fields with
  | some fault => .error fault
  | none =>
    match if l.admits s then fields.find? fun f => taken.contains f.1 else none with
    | some f => .error (.taken f.1)
    | none => .ok (l.emit clock s event fields)

end Logger

/-- The components that have loggers. -/
inductive Component
  | checker
  | manifest
  deriving DecidableEq, Repr

/-- The two loggers of the program: that of the checker and that of the manifests. -/
structure Loggers where
  checker : Logger := { component := "implicit_deps.checker" }
  manifest : Logger := { component := "implicit_deps.manifest" }

namespace Loggers

/-- Both loggers changed in the same way. -/
def both (ls : Loggers) (f : Logger → Logger) : Loggers := ⟨f ls.checker, f ls.manifest⟩

/-- The logger of a component. -/
def of (ls : Loggers) : Component → Logger
  | .checker => ls.checker
  | .manifest => ls.manifest

/-- The loggers with the one of a component changed. -/
def change (ls : Loggers) (f : Logger → Logger) : Component → Loggers
  | .checker => { ls with checker := f ls.checker }
  | .manifest => { ls with manifest := f ls.manifest }

/-- Sets up the loggers of components one after the other: each gets the threshold of a name, if the
name is not refused, and then its form.  A refusal leaves the loggers as they are at that point. -/
def configureEach (level : String) (json : Bool) :
    List Component → Loggers → Option Fault × Loggers
  | [], ls => (none, ls)
  | c :: cs, ls =>
    match Severity.threshold level with
    | .error fault => (some fault, ls)
    | .ok threshold =>
      configureEach level json cs
        ((ls.change (fun l => { l with threshold }) c).change (·.writing json) c)

/-- Both loggers with the threshold of a name and a form. -/
def configure (ls : Loggers) (level : String) (json : Bool) : Except Fault Loggers :=
  match configureEach level json [.checker, .manifest] ls with
  | (some fault, _) => .error fault
  | (none, ls) => .ok ls

end Loggers

end ImportAudit.Log
