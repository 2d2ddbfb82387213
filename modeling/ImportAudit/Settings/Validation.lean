/-
# ImportAudit.Settings.Validation — settings that are of no use.

Each objection is to one section, and a section that is objected to can be replaced by the one that
holds by default.
-/
import ImportAudit.Settings.Basic
import ImportAudit.Text.Casing

namespace ImportAudit.Settings

/-- The sections. -/
inductive Topic
  | rule
  | output
  | logging
  | discovery
  deriving DecidableEq, Repr

/-- What is objected to in settings. -/
inductive Objection
  | options (fault : OptionFault)
  | format
  | fileFormat
  | level
  | noExtensions
  | extension (text : String)
  deriving DecidableEq, Repr

/-- The formats that results are written in. -/
def formats : List String := ["console", "json"]

/-- The levels of the log. -/
def levels : List String := ["DEBUG", "INFO", "WARNING", "ERROR", "CRITICAL"]

namespace Objection

/-- The section that is objected to. -/
def topic : Objection → Topic
  | .options _ => .rule
  | .format | .fileFormat => .output
  | .level => .logging
  | .noExtensions | .extension _ => .discovery

/-- The wording of an objection. -/
def message : Objection → String
  | .options fault => "rule: " ++ fault.message
  | .format => "output.output_format must be one of " ++ ", ".intercalate formats
  | .fileFormat => "output.output_file can only be used with the json format"
  | .level => "logging.log_level must be one of " ++ ", ".intercalate levels
  | .noExtensions => "discovery.extensions must not be empty"
  | .extension text => "discovery.extensions entry must start with '.': " ++ text

end Objection

/-- A value is one of some texts. -/
def isOneOf (v : Value) (texts : List String) : Bool :=
  match v with
  | .text s => texts.contains s
  | _ => false

/-- The objections to the options of the rule. -/
def ruleObjections (s : RuleSettings) : Except Fault (List Objection) :=
  match s.toOptions with
  | .ok _ => .ok []
  | .error (.options f) => .ok [.options f]
  | .error f => .error f

/-- The objections to the output. -/
def outputObjections (s : OutputSettings) : List Objection :=
  (if isOneOf s.format formats then [] else [.format]) ++
    (if s.file.truthy && !isOneOf s.format ["json"] then [.fileFormat] else [])

/-- The objections to the log. -/
def loggingObjections (s : LoggingSettings) : List Objection :=
  if levels.contains (Text.upper s.level.plain) then [] else [.level]

/-- The objection to an extension. -/
def extensionObjection (v : Value) : Option Objection :=
  if v.plain.toList.head? = some '.' then none else some (.extension v.plain)

/-- The objections to the discovery. -/
def discoveryObjections (s : DiscoverySettings) : Except Fault (List Objection) :=
  match s.member "extensions" s.extensions with
  | .error f => .error (.misuse f)
  | .ok extensions =>
    match extensions.items with
    | .error f => .error (.misuse f)
    | .ok items =>
      .ok ((if extensions.truthy then [] else [.noExtensions]) ++
        items.filterMap extensionObjection)

/-- All objections to settings. -/
def objections (s : Settings) : Except Fault (List Objection) :=
  match ruleObjections s.rule with
  | .error f => .error f
  | .ok rule =>
    match discoveryObjections s.discovery with
    | .error f => .error f
    | .ok discovery =>
      .ok (rule ++ outputObjections s.output ++ loggingObjections s.logging ++ discovery)

/-- The settings in which every section that is objected to is the one that holds by default. -/
def reset (s : Settings) (objections : List Objection) : Settings :=
  let flawed := fun t => objections.any fun o => o.topic = t
  { rule := if flawed .rule then {} else s.rule
    output := if flawed .output then {} else s.output
    logging := if flawed .logging then {} else s.logging
    discovery := if flawed .discovery then {} else s.discovery }

end ImportAudit.Settings
