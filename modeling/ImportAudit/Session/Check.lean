/-
# ImportAudit.Session.Check — checking files.

Each file is checked by itself, against the manifest nearest to it.  A file that cannot be checked
is told of and does not keep the others from being checked, and manifests that are of no use become
warnings, each of them once.
-/
import ImportAudit.Check.Analysis
import ImportAudit.Files.Source
import ImportAudit.Manifest.Nearest
import ImportAudit.Report.Result
import ImportAudit.Session.Basic

namespace ImportAudit

namespace Run

/-! ## One file -/

/-- The packages that a file may import. -/
def allowedPackages (file : String) (o : RuleOptions) : Run (List String) := do
  let s ← get
  let c ← ofExcept (Manifest.consult s.files s.workingDir file o)
  reportAny c.problem
  trace (s.loggers.manifestResolved s.clock
    (match c.path with
      | none => .null
      | some p => .text p.toString)
    (.ofTexts ((Section.selected o).map Section.name)) (.int c.allowed.length))
  pure c.allowed

/-- Logs a finding. -/
def noteFinding (f : Finding) : Run Unit := do
  let s ← get
  trace (s.loggers.packageFound s.clock (.text f.package) (.int f.line) (.int f.column))

/-- The findings of a source file, with a resolver that says what it may import. -/
def checkWith (resolver : Resolver Run) (file : SourceFile) (o : RuleOptions) :
    Run (List Finding) := do
  traceWith fun ls clock => ls.checkStarted clock (.text file.fileName) .null
  let findings ← file.findings o resolver noteFinding
  traceWith fun ls clock =>
    ls.checkCompleted clock (.text file.fileName) (.int 0) (.int findings.length)
  pure findings

/-- The findings of a source file. -/
def checkSource (file : SourceFile) (o : RuleOptions) : Run (List Finding) :=
  checkWith allowedPackages file o

end Run

/-- A rule that files are checked by: its options, and a resolver that says what may be imported in
a file. -/
structure Rule where
  options : RuleOptions := {}
  resolver : Resolver Run := Run.allowedPackages

namespace Run

/-- The findings of the file of a path by a rule. -/
def applyTo (rule : Rule) (path : Path) : Run (List Finding) := do
  let s ← get
  checkWith rule.resolver (← ofExcept (SourceFile.load s.files s.workingDir path)) rule.options

/-- The findings of the file of a path. -/
def checkPath (path : Path) (o : RuleOptions) : Run (List Finding) := applyTo { options := o } path

/-! ## Many files -/

/-- The result with a file checked: what was found in it, or why it could not be checked. -/
def addOutcome (r : CheckResult) : Except String (List Finding) → CheckResult
  | .ok findings =>
    { r with filesChecked := r.filesChecked + 1, findings := r.findings ++ findings }
  | .error message => { r with errors := r.errors ++ [message] }

/-- What is found in the file of a path, or why it could not be checked.  Faults that are not those
of a value end the run. -/
def outcome (rule : Rule) (path : Path) : Run (Except String (List Finding)) :=
  tryCatch (Except.ok <$> applyTo rule path) fun f =>
    if f.isOfValue then pure (.error f.message) else throw f

/-- The result with the files of paths checked one after the other. -/
def checkEach (rule : Rule) (r : CheckResult) : List Path → Run CheckResult
  | [] => pure r
  | p :: ps => do
    let r := addOutcome r (← outcome rule p)
    checkEach rule r ps

/-- The listener of a check, which hears of the manifests that become warnings. -/
def warningListener (h : Handler) : Listener := { name := h.freshName }

/-- The warnings with what the listener of a check makes of a problem: that of a manifest is one
more, unless it is among them. -/
def addWarning (warnings : List String) (p : Problem) : List String :=
  if p.category = .manifest then
    if p.describe ∈ warnings then warnings else warnings ++ [p.describe]
  else warnings

/-- The warnings that come of what was heard by the listener of a name. -/
def warningsOf (name : String) (heard : List (String × Problem)) : List String :=
  (heard.filter fun h => h.1 = name).foldl (fun warnings h => addWarning warnings h.2) []

/-- Checks the files of paths by a rule. -/
def checkAll (rule : Rule) (paths : List Path) : Run CheckResult := do
  let before := (← get).handler
  let listener := warningListener before
  modify fun s => { s with handler := s.handler.add listener }
  let r ← andAfterwards (checkEach rule {} paths) fun s =>
    { s with handler := s.handler.remove listener.name }
  let heard := (← get).handler.heard.drop before.heard.length
  pure { r with warnings := warningsOf listener.name heard }

/-- Checks the files of paths. -/
def check (paths : List Path) (o : RuleOptions) : Run CheckResult := checkAll { options := o } paths

end Run

end ImportAudit
