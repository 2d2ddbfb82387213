/-
# ImportAudit.Settings.Basic — what can be set, and to what it is set by default.

The settings have four sections.  A setting may be given any value, and only what uses a setting
says which values are of use; so a setting is a value.  Besides its settings a section has other
members, which may be given values too: two of them say which members it has and which of these are
settings.
-/
import ImportAudit.Check.Options
import ImportAudit.Data.Misuse
import ImportAudit.Fault
import ImportAudit.Json.Writer

namespace ImportAudit

/-! ## Members that are no settings -/

/-- What was made of a section besides its settings: the names of the members that it was given all
at once, in the place of those that it had, and the value that its list of settings was given. -/
structure Guise where
  members : Option (List String) := none
  listing : Option Value := none
  deriving Repr

namespace Guise

/-- The section was given a member of a name when it was given all its members. -/
def has (g : Guise) (name : String) : Bool :=
  match g.members with
  | none => false
  | some names => names.contains name

/-- The section was given its members, but none of a name. -/
def lacks (g : Guise) (name : String) : Bool :=
  match g.members with
  | none => false
  | some names => !names.contains name

/-- The guise with a member of a name. -/
def giving (g : Guise) (name : String) : Guise := { g with members := g.members.map (name :: ·) }

/-- A member of the section that `owner` describes, if the section has it. -/
def member (g : Guise) (owner name : String) (v : Value) : Except Misuse Value :=
  if g.lacks name then .error (.noMember owner name) else .ok v

/-- The settings that the section lists, if the values listed are settings: nothing is one that a
file can give.  A setting that the section always has need not be among its members; those that are
`bare` need to. -/
def listed (g : Guise) (owner : String) (bare : List String) (members : List (String × Value)) :
    Except Misuse (List (String × Value)) :=
  match g.listing with
  | none =>
    match bare.find? g.lacks with
    | some name => .error (.noMember owner name)
    | none => .ok members
  | some (.mapping []) => .ok []
  | some (.mapping ((_, v) :: _)) => .error (.noMember v.fullTypeName "_field_type")
  | some v => .error (.noMember v.fullTypeName "values")

end Guise

/-! ## Sections -/

/-- The options of the rule that a check goes by unless flags say otherwise.  The reading of these
options is itself a member of the section, and a value may have taken its place. -/
structure RuleSettings where
  dev : Value := .bool false
  optional : Value := .bool false
  ignore : Value := .list []
  inPlaceOfReading : Option Value := none
  guise : Guise := {}
  deriving Repr

/-- What is printed, and in which cases a check fails. -/
structure OutputSettings where
  format : Value := .text "console"
  file : Value := .null
  quiet : Value := .bool false
  verbose : Value := .bool false
  failOnFindings : Value := .bool true
  guise : Guise := {}
  deriving Repr

/-- What is logged, and how. -/
structure LoggingSettings where
  level : Value := .text "WARNING"
  json : Value := .bool true
  guise : Guise := {}
  deriving Repr

/-- The endings of the files that are checked in directories. -/
def defaultExtensions : List String :=
  [".js", ".jsx", ".mjs", ".cjs", ".ts", ".tsx", ".mts", ".cts"]

/-- The directories in which no file is checked. -/
def defaultExcluded : List String :=
  ["node_modules", ".git", "dist", "build", "coverage", ".next", ".nuxt", ".cache",
    "bower_components"]

/-- Which files are checked in directories. -/
structure DiscoverySettings where
  extensions : Value := .ofTexts defaultExtensions
  excluded : Value := .ofTexts defaultExcluded
  guise : Guise := {}
  deriving Repr

/-- The settings of a run. -/
structure Settings where
  rule : RuleSettings := {}
  output : OutputSettings := {}
  logging : LoggingSettings := {}
  discovery : DiscoverySettings := {}
  deriving Repr

/-! ## Settings as values -/

/-- The section as members of a mapping. -/
def RuleSettings.members (s : RuleSettings) : List (String × Value) :=
  [("dev", s.dev), ("optional", s.optional), ("ignore", s.ignore)]

/-- The section as members of a mapping. -/
def OutputSettings.members (s : OutputSettings) : List (String × Value) :=
  [("output_format", s.format), ("output_file", s.file), ("quiet", s.quiet),
    ("verbose", s.verbose), ("fail_on_findings", s.failOnFindings)]

/-- The section as members of a mapping. -/
def LoggingSettings.members (s : LoggingSettings) : List (String × Value) :=
  [("log_level", s.level), ("enable_json", s.json)]

/-- The section as members of a mapping. -/
def DiscoverySettings.members (s : DiscoverySettings) : List (String × Value) :=
  [("extensions", s.extensions), ("exclude_dirs", s.excluded)]

/-- The settings that the section lists. -/
def RuleSettings.listed (s : RuleSettings) : Except Misuse (List (String × Value)) :=
  s.guise.listed "RuleConfig" ["ignore"] s.members

/-- The settings that the section lists. -/
def OutputSettings.listed (s : OutputSettings) : Except Misuse (List (String × Value)) :=
  s.guise.listed "OutputConfig" [] s.members

/-- The settings that the section lists. -/
def LoggingSettings.listed (s : LoggingSettings) : Except Misuse (List (String × Value)) :=
  s.guise.listed "LoggingConfig" [] s.members

/-- A setting of the section, if it has it. -/
def DiscoverySettings.member (s : DiscoverySettings) (name : String) (v : Value) :
    Except Misuse Value :=
  s.guise.member "DiscoveryConfig" name v

/-- The settings that the section lists. -/
def DiscoverySettings.listed (s : DiscoverySettings) : Except Misuse (List (String × Value)) :=
  s.guise.listed "DiscoveryConfig" ["extensions", "exclude_dirs"] s.members

namespace Settings

/-- Sections as a value. -/
def sectionsValue (rule output logging discovery : List (String × Value)) : Value :=
  .ofMembers [("rule", .ofMembers rule), ("output", .ofMembers output),
    ("logging", .ofMembers logging), ("discovery", .ofMembers discovery)]

/-- The settings as a value, as far as the sections list them. -/
def toValue (s : Settings) : Except Misuse Value := do
  pure (sectionsValue (← s.rule.listed) (← s.output.listed) (← s.logging.listed) (← s.discovery.listed))

/-- The text of a file that holds the settings that hold by default. -/
def sample : String :=
  let s : Settings := {}
  Json.render .file (sectionsValue s.rule.members s.output.members s.logging.members s.discovery.members)

end Settings

/-! ## The options of the rule -/

namespace RuleSettings

/-- The options that the section stands for. -/
def toOptions (s : RuleSettings) : Except Fault RuleOptions :=
  match s.inPlaceOfReading with
  | some v => .error (.misuse (.notCallable v.fullTypeName))
  | none =>
    match s.listed with
    | .error f => .error (.misuse f)
    | .ok members =>
      match RuleOptions.ofValue (.ofMembers members) with
      | .ok o => .ok o
      | .error f => .error (.options f)

/-- The packages that the section says to ignore, one after the other. -/
def ignored (s : RuleSettings) : Except Misuse (List Value) :=
  match s.guise.member "RuleConfig" "ignore" s.ignore with
  | .error f => .error f
  | .ok v => v.items

/-- The options of a check for which flags were given: a flag that is set outranks the section, and
the packages to ignore are those of the section and then those of the flags. -/
def merged (s : RuleSettings) (flags : RuleOptions) : Except Fault RuleOptions :=
  match s.ignored with
  | .error f => .error (.misuse f)
  | .ok ignored =>
    let raw := Value.ofMembers
      [("dev", if flags.dev then .bool true else s.dev),
        ("optional", if flags.optional then .bool true else s.optional),
        ("ignore", .list (ignored ++ flags.ignore.map .text))]
    match RuleOptions.ofValue raw with
    | .ok o => .ok o
    | .error f => .error (.usage ("Invalid rule options: " ++ f.message))

end RuleSettings

end ImportAudit
