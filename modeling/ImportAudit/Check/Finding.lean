/-
# ImportAudit.Check.Finding — a reference to a package that is not declared.
-/
import ImportAudit.Data.Value
import ImportAudit.Reference.Scan

namespace ImportAudit

/-- The name of the rule. -/
def ruleName : String := "no-implicit-dependencies"

/-- A reference to an undeclared package: the package, what to say about it, and where it is. -/
structure Finding where
  package : String
  message : String
  fileName : String
  line : Int
  column : Int
  start : Int
  stop : Int
  rule : String := ruleName
  deriving DecidableEq, Repr

namespace Finding

/-- What is said about an undeclared package. -/
def messageFor (package : String) : String :=
  "Module '" ++ package ++ "' is not listed as dependency in package.json"

/-- The finding that a reference to an undeclared package in a file makes. -/
def ofReference (fileName : String) (r : Reference) (package : String) : Finding where
  package := package
  message := messageFor package
  fileName := fileName
  line := r.line
  column := r.column
  start := r.start
  stop := r.stop

/-- A finding as a value. -/
def toValue (f : Finding) : Value :=
  .ofMembers [("package_name", .text f.package), ("message", .text f.message),
    ("file_name", .text f.fileName), ("line", .int f.line), ("column", .int f.column),
    ("start", .int f.start), ("end", .int f.stop), ("rule_name", .text f.rule)]

end Finding

end ImportAudit
