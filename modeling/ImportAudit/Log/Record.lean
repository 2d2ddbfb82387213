/-
# ImportAudit.Log.Record — records and how they are written.

A record says when, how grave, which component, and what happened, and may have further fields.  It
is written as a line of JSON with all of its fields, or as a plain line without them.  No field may
have the name of a part that every record has; a few names are accepted and left out.
-/
import ImportAudit.Json.Writer
import ImportAudit.Log.Severity

namespace ImportAudit.Log

/-- The time, as it is written in JSON records and in plain ones. -/
structure Clock where
  stamp : String
  time : String
  deriving DecidableEq, Repr

/-- A record. -/
structure Record where
  clock : Clock
  severity : Severity
  component : String
  message : String
  fields : List (String × Value)

/-- The names that the parts of every record have. -/
def taken : List String :=
  ["name", "msg", "args", "levelname", "levelno", "pathname", "filename", "module", "exc_info",
    "exc_text", "stack_info", "lineno", "funcName", "created", "msecs", "relativeCreated",
    "thread", "threadName", "processName", "process", "message", "asctime"]

/-- The names of fields that are left out where a record is written. -/
def hidden : List String := ["taskName"]

/-- The name of a field that would take the place of the action that words a record. -/
def wordless : String := "getMessage"

/-- The members with another one: it replaces the member of its name or comes last. -/
def put (name : String) (v : Value) : List (String × Value) → List (String × Value)
  | [] => [(name, v)]
  | (k, w) :: ms => if k = name then (k, v) :: ms else (k, w) :: put name v ms

/-- The members with others put behind or in place of them. -/
def putAll (members more : List (String × Value)) : List (String × Value) :=
  more.foldl (fun ms m => put m.1 m.2 ms) members

namespace Record

/-- The members of a record in JSON. -/
def members (r : Record) : List (String × Value) :=
  putAll
    [("timestamp", .text r.clock.stamp), ("level", .text r.severity.name),
      ("component", .text r.component), ("message", .text r.message)]
    (r.fields.filter fun f => !hidden.contains f.1)

/-- A record as a line of JSON. -/
def jsonLine (r : Record) : String := Json.render .line (.ofMembers r.members)

/-- A record as a plain line. -/
def plainLine (r : Record) : String :=
  r.clock.time ++ " - " ++ r.component ++ " - " ++ r.severity.name ++ " - " ++ r.message

end Record

end ImportAudit.Log
