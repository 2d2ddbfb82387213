/-
# ImportAudit.Settings.Environment — settings as variables of the environment give them.

A variable that is not empty outranks the file.
-/
import ImportAudit.Settings.Basic
import ImportAudit.Text.Casing
import ImportAudit.Text.Trim

namespace ImportAudit

/-- The variables of the environment. -/
abbrev Environment := List (String × String)

namespace Environment

/-- The environment with a variable set. -/
def set (env : Environment) (name text : String) : Environment :=
  (name, text) :: env.filter fun v => v.1 ≠ name

/-- The environment without a variable. -/
def unset (env : Environment) (name : String) : Environment := env.filter fun v => v.1 ≠ name

/-- The text of a variable, if it is not empty. -/
def text? (env : Environment) (name : String) : Option String :=
  match env.lookup name with
  | some "" | none => none
  | some text => some text

/-- The texts that a variable may have to be true. -/
def affirmations : List String := ["true", "1", "yes", "on"]

/-- The items of a list that is separated by commas, without white space around them and without
those that are empty. -/
def splitList (text : String) : List String :=
  (Text.splitOn ',' text.toList).filterMap fun item =>
    match Text.trim item with
    | [] => none
    | cs => some (String.ofList cs)

/-- The value of a setting after a variable that is true or false. -/
def flag (env : Environment) (name : String) (v : Value) : Value :=
  match env.text? name with
  | none => v
  | some text => .bool (affirmations.contains (Text.lower text))

/-- The settings after the variables of the environment. -/
def apply (env : Environment) (s : Settings) : Settings where
  rule :=
    { s.rule with
      dev := env.flag "NO_IMPLICIT_DEPS_DEV" s.rule.dev
      optional := env.flag "NO_IMPLICIT_DEPS_OPTIONAL" s.rule.optional
      ignore :=
        match env.text? "NO_IMPLICIT_DEPS_IGNORE" with
        | none => s.rule.ignore
        | some text => .ofTexts (splitList text)
      guise :=
        match env.text? "NO_IMPLICIT_DEPS_IGNORE" with
        | none => s.rule.guise
        | some _ => s.rule.guise.giving "ignore" }
  output :=
    { s.output with
      format :=
        match env.text? "NO_IMPLICIT_DEPS_OUTPUT_FORMAT" with
        | none => s.output.format
        | some text => .text (Text.lower text) }
  logging :=
    { s.logging with
      level :=
        match env.text? "NO_IMPLICIT_DEPS_LOG_LEVEL" with
        | none => s.logging.level
        | some text => .text (Text.upper text) }
  discovery := s.discovery

end Environment

end ImportAudit
