/-
# ImportAudit.Command.Program — the command line of the program.
-/
import ImportAudit.Check.Rule
import ImportAudit.Command.Configuration

namespace ImportAudit.Command

/-! ## About the rule -/

/-- The shape of the command that tells about the rule. -/
def infoShape : Shape where
  words := "no-implicit-deps info"
  about := [(0, "Show the rule description, its options and supported file types.")]
  switches := []
  rest := .nothing

/-- What there is to tell about the rule. -/
def infoText : String :=
  "\n[bold blue]📋 Rule:[/bold blue] " ++ ruleName ++ "\n\n" ++
  Rule.description ++ ".\n" ++ Rule.details ++ "\n\n" ++
  "[bold blue]⚙️  Options:[/bold blue]\n" ++ Rule.optionsDescription ++ "\n\n" ++
  "[bold blue]📁 Supported File Types:[/bold blue]\n" ++ ", ".intercalate defaultExtensions ++
  "\n\n[bold blue]💡 Examples:[/bold blue]\n" ++
  "  no-implicit-deps check src/\n" ++
  "  no-implicit-deps check src/ --dev --optional\n" ++
  "  no-implicit-deps check src/ --ignore '#' --ignore internal-alias\n"

/-- The command that tells about the rule. -/
def runInfo : List String → Run Nat :=
  perform infoShape fun _ => do
    Run.print [Console.panel Run.outputWidth "no-implicit-deps" infoText]
    pure succeeded

/-! ## The program -/

/-- The version of the program. -/
def version : String := "1.0.0"

/-- The shape of the program itself. -/
def programShape : Shape where
  words := "no-implicit-deps"
  about :=
    [(0, "🔍 no-implicit-deps: find imports missing from package.json"),
      (0, "Reports modules that a JavaScript or TypeScript file imports but that are not " ++
        "declared as dependencies in the nearest package.json.")]
  switches := [{ name := "--version", help := "Show version information" }]
  rest := .commands false
    [("check", "Check source files for imports not listed in package.json."),
      ("config", "Manage configuration files."),
      ("info", "Show the rule description, its options and supported file types.")]

/-- The command of a name. -/
def command : String → Option (List String → Run Nat)
  | "check" => some runCheck
  | "config" => some runConfig
  | "info" => some runInfo
  | _ => none

/-- Tells the version if that is asked for. -/
def tellVersion (a : Arguments) : Run (Option Nat) := do
  if a.has "--version" then
    Run.say ("no-implicit-deps version " ++ version)
    pure (some succeeded)
  else pure none

/-- Runs the program with a command line; alone it shows its help text. -/
def run : List String → Run Nat :=
  descend programShape tellVersion
    (do
      Run.say programShape.helpText
      pure succeeded)
    command

end ImportAudit.Command
