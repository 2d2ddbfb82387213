/-
# ImportAudit.Session.Setup — loading the settings of a run.

The settings are loaded once and kept.  Those that are of no use are objected to, and their sections
are as they would be without a file.
-/
import ImportAudit.Session.Basic
import ImportAudit.Settings.File
import ImportAudit.Settings.Reading
import ImportAudit.Settings.Validation

namespace ImportAudit.Run

/-- What is printed about a file that cannot be read. -/
def unreadText (path : Path) (f : Fault) : String :=
  "⚠️  Error loading config from " ++ path.toString ++ ": " ++ f.message

/-- The value that the file of a path holds, null if there is none or it cannot be read. -/
def readSettingsFile (path : Path) : Run Value := do
  let s ← get
  if !(← ofExcept ((s.files.hasEntry s.workingDir path.toString).mapError .files)) then
    return .null
  match Settings.readFile s.files s.workingDir path with
  | .ok v => pure v
  | .error f =>
    report (.ofConfiguration path.toString f)
    warn (unreadText path f)
    pure .null

/-- The file that settings are found in. -/
def findSettingsFile (start : Option Path) : Run (Option Path) := do
  let s ← get
  ofExcept ((Settings.locate s.files s.workingDir s.environment start).mapError .files)

/-- Prints warnings one after the other. -/
def warnAll : List String → Run Unit
  | [] => pure ()
  | text :: texts => do
    warn text
    warnAll texts

/-- The settings that a file and the environment give. -/
def buildSettings (file : Value) : Run Settings := do
  let (remarks, read) := Settings.ofFile file
  warnAll (remarks.map Settings.Remark.text)
  let settings ← ofExcept (read.mapError .misuse)
  pure ((← get).environment.apply settings)

/-- Tells of objections, and replaces the sections that they are to. -/
def settle (settings : Settings) : List Settings.Objection → Run Settings
  | [] => pure settings
  | objections => do
    warn "⚠️  Configuration validation errors:"
    warnAll (objections.map fun o => "  • " ++ o.message)
    warn "Using default values for invalid settings."
    pure (settings.reset objections)

/-- Loads the settings anew, from a file if there is one, and keeps them. -/
def reloadSettings (file : Option Path) : Run Settings := do
  let data ← match file with
    | none => pure .null
    | some path => readSettingsFile path
  let built ← buildSettings data
  let settings ← settle built (← ofExcept built.objections)
  modify fun s => { s with settings := some settings }
  pure settings

/-- The settings of a run: those of a file that is given, or else those that were loaded before, or
else those of the file that is found. -/
def loadSettings (path : Option Path) : Run Settings := do
  match path, (← get).settings with
  | some path, _ => reloadSettings (some path)
  | none, some settings => pure settings
  | none, none => reloadSettings (← findSettingsFile none)

/-- The settings that are in force: those that are kept, or else those that are found and then
kept. -/
def currentSettings : Run Settings := do
  match (← get).settings with
  | some settings => pure settings
  | none =>
    let settings ← loadSettings none
    modify fun s => { s with settings := some settings }
    pure settings

/-- Forgets the settings that were loaded. -/
def resetSettings : Run Unit := modify fun s => { s with settings := none }

end ImportAudit.Run
