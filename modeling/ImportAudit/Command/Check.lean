/-
# ImportAudit.Command.Check — checking the files of paths and telling what was found.
-/
import ImportAudit.Command.Outcome
import ImportAudit.Files.Discovery
import ImportAudit.Report.Listing
import ImportAudit.Session.Check
import ImportAudit.Session.Setup

namespace ImportAudit.Command

/-! ## What is asked for -/

/-- The shape of the command. -/
def checkShape : Shape where
  words := "no-implicit-deps check"
  about :=
    [(0, "Check source files for imports not listed in package.json."),
      (0, "Directories are searched recursively for .js/.jsx/.mjs/.cjs/.ts/.tsx files, " ++
        "skipping node_modules."),
      (0, "Examples:"),
      (2, "no-implicit-deps check src/"),
      (2, "no-implicit-deps check src/index.ts --dev --ignore '#'"),
      (2, "no-implicit-deps check src --output-format json -o results.json")]
  switches :=
    [{ name := "--dev", help := "Check devDependencies instead of peerDependencies" },
      { name := "--optional", help := "Also accept packages listed in optionalDependencies" },
      { name := "--ignore", letter := some 'i', use := some .anything
        help := "Package name to never report (repeatable)" },
      { name := "--config", use := some (.file true)
        help := "Configuration file (JSON, YAML or TOML)" },
      { name := "--output-format", use := some (.oneOf Settings.formats)
        help := "Output format for results (default from config or console)" },
      { name := "--output-file", letter := some 'o', use := some (.file false)
        help := "Save results to file (JSON format only)" },
      { name := "--quiet", letter := some 'q', help := "Only print one line per finding" },
      { name := "--verbose", letter := some 'v', help := "Enable verbose output" },
      { name := "--no-fail"
        help := "Exit with status 0 even when implicit dependencies are found" }]
  rest := .operands { label := "PATHS...", use := .present, many := true }

/-- What a command line asks a check for. -/
structure CheckRequest where
  paths : List String
  flags : RuleOptions := {}
  settingsFile : Option String := none
  format : Option String := none
  file : Option String := none
  quiet : Bool := false
  verbose : Bool := false
  noFail : Bool := false
  deriving DecidableEq, Repr

/-- The request that arguments make. -/
def CheckRequest.ofArguments (a : Arguments) : CheckRequest where
  paths := a.rest
  flags := ⟨a.has "--dev", a.has "--optional", a.texts "--ignore"⟩
  settingsFile := a.text? "--config"
  format := (a.text? "--output-format").map folded
  file := a.text? "--output-file"
  quiet := a.has "--quiet"
  verbose := a.has "--verbose"
  noFail := a.has "--no-fail"

/-! ## Requests and settings -/

/-- The format that results are printed in. -/
def CheckRequest.formatWith (r : CheckRequest) (s : OutputSettings) : Except Fault String :=
  match r.format, s.format with
  | some format, _ => .ok format
  | none, .text format => .ok (Text.lower format)
  | none, v => .error (.misuse (.noMember v.fullTypeName "lower"))

/-- The file that results are written to, if it counts as true. -/
def CheckRequest.fileWith (r : CheckRequest) (s : OutputSettings) : Value :=
  match r.file with
  | none | some "" => s.file
  | some file => .text file

/-- Findings make the check fail. -/
def CheckRequest.failsWith (r : CheckRequest) (s : OutputSettings) : Bool :=
  s.failOnFindings.truthy && !r.noFail

/-- The status of a check with a result. -/
def statusOf (fails : Bool) (result : CheckResult) : Nat :=
  if result.errors ≠ [] then refused
  else if result.hasFindings && fails then failed
  else succeeded

/-- The name of the threshold of the loggers. -/
def CheckRequest.levelWith (r : CheckRequest) (s : LoggingSettings) : Except Fault String :=
  if r.verbose then .ok "DEBUG"
  else
    match s.level with
    | .text level => .ok level
    | v => .error (.misuse (.noMember v.fullTypeName "upper"))

/-- Sets up the loggers. -/
def configureLoggers (r : CheckRequest) (s : LoggingSettings) : Run Unit := do
  let level ← Run.ofExcept (r.levelWith s)
  let loggers ← Run.ofExcept (((← get).loggers.configure level s.json.truthy).mapError .log)
  modify fun session => { session with loggers }

/-- The files to check. -/
def filesOf (paths : List String) (s : DiscoverySettings) : Run (List Path) := do
  let extensions ← Run.ofExcept ((s.member "extensions" s.extensions).mapError .misuse)
  let names ← Run.ofExcept ((s.member "exclude_dirs" s.excluded).mapError .misuse)
  let endings ← Run.ofExcept ((Files.Discovery.endings extensions).mapError .misuse)
  let excluded ← Run.ofExcept ((Files.Discovery.excluded names).mapError .misuse)
  let session ← get
  Run.ofExcept ((Files.Discovery.find session.files session.workingDir endings excluded
    paths).mapError .files)

/-! ## Results -/

/-- A finding on one line. -/
def findingLine (f : Finding) : String :=
  f.fileName ++ ":" ++ toString f.line ++ ":" ++ toString f.column ++ ": " ++ f.message

/-- Prints texts line by line. -/
def echoAll : List String → Run Unit
  | [] => pure ()
  | text :: texts => do
    Run.echoPlain text
    echoAll texts

/-- Prints texts line by line where errors go. -/
def complainAll : List String → Run Unit
  | [] => pure ()
  | text :: texts => do
    Run.complain text
    complainAll texts

/-- Prints a result, a line for every finding, error and warning. -/
def printLines (result : CheckResult) : Run Unit := do
  echoAll (result.findings.map findingLine)
  complainAll (result.errors.map ("error: " ++ ·))
  complainAll (result.warnings.map ("warning: " ++ ·))

/-- The path of the file that a value names. -/
def pathOf : Value → Except Fault String
  | .text path => .ok path
  | .int i =>
    if i < 0 then .error (.raised "ValueError" [.text "negative file descriptor"])
    else .error (.raised "OSError" [.int 9, .text Files.Refusal.badDescriptor.description])
  | v => .error (.misuse (.notPath v.fullTypeName))

/-- Writes a text to a file. -/
def writeText (path text : String) : Run Unit := do
  let s ← get
  let bytes := Text.Utf8.encode text
  let files ← Run.ofExcept ((s.files.write s.workingDir path bytes).mapError .files)
  set { s with files }

/-- Writes a result as JSON, to a file if one is named. -/
def writeJson (result : CheckResult) (file : Value) : Run Unit := do
  if file.truthy then
    let path ← Run.ofExcept (pathOf file)
    writeText path result.toJson
    Run.warnAt Run.outputWidth ("✅ Results saved to " ++ path)
  else Run.echo result.toJson

/-- Tells a result. -/
def deliver (format : String) (file : Value) (r : CheckRequest) (result : CheckResult) : Run Unit :=
  if format = "json" then writeJson result file
  else if r.quiet then printLines result
  else Run.print (Report.listing Run.outputWidth r.verbose result)

/-- Checks files and tells the result. -/
def checkFiles (r : CheckRequest) (options : RuleOptions) (format : String) (file : Value)
    (fails : Bool) (files : List Path) : Run Nat := do
  let result ← Run.check files options
  deliver format file r result
  pure (statusOf fails result)

/-- Does what a request asks for. -/
def check (r : CheckRequest) : Run Nat := do
  let settings ← Run.loadSettings (r.settingsFile.map Path.ofString)
  configureLoggers r settings.logging
  let options ← Run.ofExcept (settings.rule.merged r.flags)
  let format ← Run.ofExcept (r.formatWith settings.output)
  let file := r.fileWith settings.output
  if file.truthy && format ≠ "json" then
    throw (.usage "Output file can only be used with JSON format")
  let files ← filesOf r.paths settings.discovery
  if files.isEmpty then
    if !r.quiet then Run.say "⚠️  No source files found to check."
    pure succeeded
  else checkFiles r options format file (r.failsWith settings.output) files

/-- The command. -/
def runCheck : List String → Run Nat :=
  perform checkShape fun a => check (.ofArguments a)

end ImportAudit.Command
