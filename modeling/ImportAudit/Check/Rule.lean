/-
# ImportAudit.Check.Rule — what the rule says of itself.
-/
import ImportAudit.Check.Finding

namespace ImportAudit.Rule

/-- What the rule is for. -/
def description : String :=
  "Disallows importing modules that are not listed as dependency in the project's package.json"

/-- What it keeps from happening. -/
def details : String :=
  "Disallows importing transient dependencies and modules installed above your package's " ++
    "root directory."

/-- What its options are for. -/
def optionsDescription : String :=
  "By default the rule looks at \"dependencies\" and \"peerDependencies\".\n" ++
  "By adding the \"dev\" option the rule looks at \"devDependencies\" instead of " ++
    "\"peerDependencies\".\n" ++
  "By adding the \"optional\" option the rule also looks at \"optionalDependencies\".\n" ++
  "By adding the \"ignore\" option the rule will ignore certain imports e.g. alias for " ++
    "absolute imports."

/-- A schema of a type. -/
def typed (name : String) (more : List (String × Value)) : Value :=
  .ofMembers (("type", .text name) :: more)

/-- The schema of the options. -/
def schema : Value :=
  typed "object"
    [("properties", .ofMembers
      [("dev", typed "boolean" []), ("optional", typed "boolean" []),
        ("ignore", typed "array" [("items", typed "string" [])])])]

/-- Examples of options. -/
def examples : List Value :=
  [.bool true,
    .list [.bool true, .ofMembers
      [("dev", .bool true), ("optional", .bool false), ("ignore", .ofTexts ["#"])]]]

/-- All that the rule says of itself. -/
def metadata : Value :=
  .ofMembers [("ruleName", .text ruleName), ("description", .text description),
    ("descriptionDetails", .text details), ("optionsDescription", .text optionsDescription),
    ("options", schema), ("optionExamples", .list examples), ("type", .text "functionality"),
    ("typescriptOnly", .bool false)]

end ImportAudit.Rule
