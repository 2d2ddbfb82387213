/-
# ImportAudit.Problem.Record — problems that a run survives.

A manifest or a configuration that cannot be used does not end a run.  The problem is recorded
with where it was met, the file it is about, what went wrong, and what can be done.
-/
import ImportAudit.Fault

namespace ImportAudit

/-- What a problem is about. -/
inductive Category
  | manifest
  | configuration
  deriving DecidableEq, Repr

/-- The name of a category. -/
def Category.name : Category → String
  | .manifest => "MANIFEST"
  | .configuration => "CONFIGURATION"

/-- A problem: what it is about, what is said, the part of the program and the activity in which
it was met, the file, what went wrong, and what can be done. -/
structure Problem where
  category : Category
  message : String
  component : String
  activity : String
  path : Option String := none
  fault : Option Fault := none
  suggestions : List String := []
  deriving Repr

namespace Problem

/-- A text behind the path it is about, if there is one. -/
def about (path : Option String) (text : String) : String :=
  match path with
  | none => text
  | some p => if p = "" then text else p ++ ": " ++ text

/-- A text with what went wrong, if that is known. -/
def because (fault : Option Fault) (text : String) : String :=
  match fault with
  | none => text
  | some f => text ++ " (" ++ f.kindName ++ ": " ++ f.message ++ ")"

/-- A problem on one line. -/
def describe (p : Problem) : String := because p.fault (about p.path p.message)

/-- The problem of a manifest that is of no use. -/
def ofManifest (message activity : String) (path : Option String) (fault : Option Fault) :
    Problem where
  category := .manifest
  message := message
  component := "manifest"
  activity := activity
  path := path
  fault := fault
  suggestions :=
    ["Check that package.json contains a valid JSON object",
      "Verify the file is readable and UTF-8 encoded"]

/-- The problem of a configuration file that was not loaded. -/
def ofConfiguration (path : String) (fault : Fault) : Problem where
  category := .configuration
  message := "Error loading config from " ++ path
  component := "cli_config"
  activity := "load_config_file"
  path := some path
  fault := some fault
  suggestions := ["Run 'no-implicit-deps config validate' on the file"]

end Problem

end ImportAudit
