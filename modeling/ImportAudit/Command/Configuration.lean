/-
# ImportAudit.Command.Configuration — writing, showing and validating settings.
-/
import ImportAudit.Command.Check

namespace ImportAudit.Command

/-! ## A sample -/

/-- The shape of the command that writes a sample. -/
def initShape : Shape where
  words := "no-implicit-deps config init"
  about := [(0, "Write a sample configuration file.")]
  switches := [{ name := "--force", help := "Overwrite an existing file" }]
  rest := .operands
    { label := "[PATH]", use := .file false, fallback := some ".no-implicit-deps.json" }

/-- Writes a sample to a file; one that exists is overwritten only if `force`. -/
def writeSample (force : Bool) (path : Path) : Run Nat := do
  let s ← get
  let taken ← Run.ofExcept ((s.files.hasEntry s.workingDir path.toString).mapError .files)
  if taken && !force then
    decline (path.toString ++ " already exists (use --force to overwrite)")
  else
    writeText path.toString (Settings.sample ++ "\n")
    Run.say ("✅ Sample configuration written to " ++ path.toString)
    pure succeeded

/-- The command that writes a sample. -/
def runInit : List String → Run Nat :=
  perform initShape fun a => writeSample (a.has "--force") (.ofString (initShape.operand a))

/-! ## The settings that hold -/

/-- The shape of the command that shows the settings. -/
def showShape : Shape where
  words := "no-implicit-deps config show"
  about := [(0, "Show the effective configuration.")]
  switches := []
  rest := .nothing

/-- The fault of a value that cannot be written. -/
def unwritable : Bool × String → Fault
  | (true, type) => .misuse (.notKey type)
  | (false, type) => .misuse (.notWritable type)

/-- Shows the settings. -/
def showSettings : Run Nat := do
  let settings ← Run.ofExcept ((← Run.loadSettings none).toValue.mapError .misuse)
  match Json.unwritable? settings with
  | some part => throw (unwritable part)
  | none =>
    Run.echo (Json.render .report settings)
    pure succeeded

/-- The command that shows the settings. -/
def runShow : List String → Run Nat := perform showShape fun _ => showSettings

/-! ## Validation -/

/-- The shape of the command that validates a file. -/
def validateShape : Shape where
  words := "no-implicit-deps config validate"
  about := [(0, "Validate a configuration file.")]
  switches := []
  rest := .operands { label := "CONFIG_FILE", use := .file true }

/-- Prints texts with markup one after the other. -/
def sayAll : List String → Run Unit
  | [] => pure ()
  | text :: texts => do
    Run.say text
    sayAll texts

/-- Tells what is to be objected to in the settings of a file. -/
def validate (path : String) : Run Nat := do
  match ← Run.readSettingsFile (.ofString path) with
  | .null => decline ("Could not load configuration from " ++ path)
  | data =>
    match ← Run.ofExcept (← Run.buildSettings data).objections with
    | [] =>
      Run.say "✅ Configuration is valid."
      pure succeeded
    | objections =>
      Run.say "❌ Configuration is invalid:"
      sayAll (objections.map fun o => "  • " ++ o.message)
      pure failed

/-- The command that validates a file. -/
def runValidate : List String → Run Nat :=
  perform validateShape fun a => validate (validateShape.operand a)

/-! ## All of them -/

/-- The shape of the command that these are below. -/
def configShape : Shape where
  words := "no-implicit-deps config"
  about := [(0, "Manage configuration files.")]
  switches := []
  rest := .commands true
    [("init", "Write a sample configuration file."), ("show", "Show the effective configuration."),
      ("validate", "Validate a configuration file.")]

/-- The command of a name. -/
def configCommand : String → Option (List String → Run Nat)
  | "init" => some runInit
  | "show" => some runShow
  | "validate" => some runValidate
  | _ => none

/-- The command that these are below; alone it is refused with its help text. -/
def runConfig : List String → Run Nat
  | [] => do
    Run.complain configShape.helpText
    pure refused
  | words =>
    descend configShape (fun _ => pure none) (refuse configShape .missingCommand) configCommand
      words

end ImportAudit.Command
