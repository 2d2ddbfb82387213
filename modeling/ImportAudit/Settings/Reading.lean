/-
# ImportAudit.Settings.Reading — settings as a file gives them.

A file gives a mapping of sections, each of which is a mapping of settings.  A section that is no
mapping and a setting that is unknown are remarked on and otherwise left out.  Members that every
section has without being a setting are known too: most accept any value and do nothing with it, but
one gives the section all its members anew, and another one says which of them are settings.
-/
import ImportAudit.Settings.Basic
import ImportAudit.Text.Trim

namespace ImportAudit

namespace Settings

/-- What is remarked on a file. -/
inductive Remark
  | notMapping (part : String)
  | unknown (part key : String)
  deriving DecidableEq, Repr

/-- The wording of a remark. -/
def Remark.text : Remark → String
  | .notMapping part => "⚠️  Config section '" ++ part ++ "' must be an object"
  | .unknown part key => "⚠️  Unknown config key in " ++ part ++ ": " ++ key

/-- Remarks, and what came of a step. -/
abbrev Reading (α : Type) := List Remark × Except Misuse α

/-- The members of every section that accept any value and do nothing with it. -/
def inertMembers : List String :=
  ["__annotations__", "__dataclass_params__", "__delattr__", "__dir__",
    "__doc__", "__eq__", "__format__", "__ge__", "__getattribute__", "__getstate__", "__gt__",
    "__hash__", "__init__", "__init_subclass__", "__le__", "__lt__", "__match_args__",
    "__module__", "__ne__", "__new__", "__reduce__", "__reduce_ex__", "__repr__", "__setattr__",
    "__sizeof__", "__str__", "__subclasshook__"]

/-- The member of every section that gives it all its members anew. -/
def membersMember : String := "__dict__"

/-- The member of every section that lists its settings. -/
def listingMember : String := "__dataclass_fields__"

/-! ## The settings of each section

A setting that the section lacks is none that it has. -/

/-- The section with a setting changed, if it has one of the name. -/
def setRule (key : String) (v : Value) (s : RuleSettings) : Option RuleSettings :=
  match key with
  | "dev" => some { s with dev := v }
  | "optional" => some { s with optional := v }
  | "ignore" => if s.guise.lacks "ignore" then none else some { s with ignore := v }
  | "to_options" => some { s with inPlaceOfReading := some v }
  | _ => none

/-- The section with a setting changed, if it has one of the name. -/
def setOutput (key : String) (v : Value) (s : OutputSettings) : Option OutputSettings :=
  match key with
  | "output_format" => some { s with format := v }
  | "output_file" => some { s with file := v }
  | "quiet" => some { s with quiet := v }
  | "verbose" => some { s with verbose := v }
  | "fail_on_findings" => some { s with failOnFindings := v }
  | _ => none

/-- The section with a setting changed, if it has one of the name. -/
def setLogging (key : String) (v : Value) (s : LoggingSettings) : Option LoggingSettings :=
  match key with
  | "log_level" => some { s with level := v }
  | "enable_json" => some { s with json := v }
  | _ => none

/-- The section with a setting changed, if it has one of the name. -/
def setDiscovery (key : String) (v : Value) (s : DiscoverySettings) : Option DiscoverySettings :=
  match key with
  | "extensions" => if s.guise.lacks "extensions" then none else some { s with extensions := v }
  | "exclude_dirs" => if s.guise.lacks "exclude_dirs" then none else some { s with excluded := v }
  | _ => none

/-! ## Sections -/

/-- How a section is changed: its name, what it is called where a member cannot be set, what holds by
default, what becomes of it when a setting is changed, and its guise. -/
structure Part (α : Type) where
  name : String
  owner : String
  default : α
  set? : String → Value → α → Option α
  guise : α → Guise
  inGuise : Guise → α → α

/-- The section of the rule. -/
def rulePart : Part RuleSettings :=
  ⟨"rule", "RuleConfig", {}, setRule, RuleSettings.guise, fun guise s => { s with guise }⟩

/-- The section of the output. -/
def outputPart : Part OutputSettings :=
  ⟨"output", "OutputConfig", {}, setOutput, OutputSettings.guise, fun guise s => { s with guise }⟩

/-- The section of the log. -/
def loggingPart : Part LoggingSettings :=
  ⟨"logging", "LoggingConfig", {}, setLogging, LoggingSettings.guise,
    fun guise s => { s with guise }⟩

/-- The section of the discovery. -/
def discoveryPart : Part DiscoverySettings :=
  ⟨"discovery", "DiscoveryConfig", {}, setDiscovery, DiscoverySettings.guise,
    fun guise s => { s with guise }⟩

namespace Part

variable {α : Type}

/-- The section with the settings changed that are among members. -/
def setAll (p : Part α) (s : α) : List (Value × Value) → α
  | [] => s
  | (.text key, v) :: rest => setAll p ((p.set? key v s).getD s) rest
  | _ :: rest => setAll p s rest

/-- The section that was given these members and no others.  What it always has is as it is by
default. -/
def ofMembers (p : Part α) (members : List (Value × Value)) : α :=
  let guise := ⟨some (Value.textKeys members), Value.lookup listingMember members⟩
  p.setAll (p.inGuise guise p.default) members

/-- What becomes of a section when a member is changed that is no setting of it. -/
def setMember (p : Part α) (key : String) (v : Value) (s : α) : Option (Except Misuse α) :=
  if key = "__class__" then some (.error (.notClass v.fullTypeName))
  else if key = membersMember then
    match v with
    | .mapping members => some (.ok (p.ofMembers members))
    | v => some (.error (.notMembers v.fullTypeName))
  else if key = "__weakref__" then some (.error (.fixedMember key p.owner))
  else if key = listingMember then
    some (.ok (p.inGuise { p.guise s with listing := some v } s))
  else if inertMembers.contains key || (p.guise s).has key then some (.ok s)
  else none

/-- The section after its members were read one after the other. -/
def readMembers (p : Part α) (s : α) : List (Value × Value) → Reading α
  | [] => ([], .ok s)
  | (.text key, v) :: rest =>
    match p.set? key v s with
    | some s => readMembers p s rest
    | none =>
      match p.setMember key v s with
      | some (.ok s) => readMembers p s rest
      | some (.error f) => ([], .error f)
      | none =>
        let r := readMembers p s rest
        (.unknown p.name key :: r.1, r.2)
  | (key, _) :: _ => ([], .error (.notName key.fullTypeName))

/-- The section as a value gives it, on top of what holds by default. -/
def read (p : Part α) : Value → Reading α
  | .mapping members => p.readMembers p.default members
  | _ => ([.notMapping p.name], .ok p.default)

/-- What a file gives for the section. -/
def find (p : Part α) : Value → Except Misuse (Option Value)
  | .mapping members => .ok (Value.lookup p.name members)
  | .text s => if Text.occursIn p.name.toList s.toList then .error .textIndex else .ok none
  | .list items =>
    if items.any fun v => Value.sameKey v (.text p.name) then .error .listIndex else .ok none
  | v => .error (.notContainer v.fullTypeName)

/-- The section as a file gives it. -/
def readFrom (p : Part α) (file : Value) : Reading α :=
  match p.find file with
  | .error f => ([], .error f)
  | .ok none => ([], .ok p.default)
  | .ok (some v) => p.read v

end Part

/-! ## The file -/

/-- A reading and then another one that goes on from it. -/
def Reading.andThen {α β : Type} (r : Reading α) (next : α → Reading β) : Reading β :=
  match r with
  | (remarks, .error f) => (remarks, .error f)
  | (remarks, .ok a) => (remarks ++ (next a).1, (next a).2)

/-- The settings as a file gives them, on top of those that hold by default.  What counts as false
gives nothing. -/
def ofFile (file : Value) : Reading Settings :=
  if !file.truthy then ([], .ok {})
  else
    (rulePart.readFrom file).andThen fun rule =>
    (outputPart.readFrom file).andThen fun output =>
    (loggingPart.readFrom file).andThen fun logging =>
    (discoveryPart.readFrom file).andThen fun discovery =>
    ([], .ok { rule, output, logging, discovery })

end Settings

end ImportAudit
