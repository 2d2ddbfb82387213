/-
# ImportAudit.Report.Result — what a check of many files came to.
-/
import ImportAudit.Check.Finding
import ImportAudit.Json.Writer

namespace ImportAudit

/-- The outcome of a check: how many files were checked, what was found in them, which files could
not be checked, and which manifests were of no use. -/
structure CheckResult where
  filesChecked : Int := 0
  findings : List Finding := []
  errors : List String := []
  warnings : List String := []
  deriving DecidableEq, Repr

namespace CheckResult

/-- Something was found. -/
def hasFindings (r : CheckResult) : Bool := !r.findings.isEmpty

/-- Groups with one more finding: it joins the group of its file or makes a new one. -/
def addToGroups (f : Finding) : List (String × List Finding) → List (String × List Finding)
  | [] => [(f.fileName, [f])]
  | (name, fs) :: gs =>
    if name = f.fileName then (name, fs ++ [f]) :: gs else (name, fs) :: addToGroups f gs

/-- The findings of each file, files in the order in which they first appear. -/
def byFile (r : CheckResult) : List (String × List Finding) :=
  r.findings.foldl (fun gs f => addToGroups f gs) []

/-- A result as a value. -/
def toValue (r : CheckResult) : Value :=
  .ofMembers [("files_checked", .int r.filesChecked),
    ("total_findings", .int r.findings.length),
    ("findings", .list (r.findings.map Finding.toValue)),
    ("errors", .ofTexts r.errors), ("warnings", .ofTexts r.warnings)]

/-- A result as JSON. -/
def toJson (r : CheckResult) : String := Json.render .report r.toValue

end CheckResult

end ImportAudit
