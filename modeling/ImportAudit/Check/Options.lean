/-
# ImportAudit.Check.Options — the options of the rule and their raw forms.

Options may be written as nothing or `true`, which leave every option at its default, as a mapping
of some of the options, or as a list whose first item that is no truth value is one of these.  What
is written in any other way is refused, and the fault says why.
-/
import ImportAudit.Data.Value
import ImportAudit.Text.Sorted

namespace ImportAudit

/-- What a check goes by: whether packages needed for development count instead of those needed
by peers, whether optional packages count, and which packages are never reported. -/
structure RuleOptions where
  dev : Bool := false
  optional : Bool := false
  ignore : List String := []
  deriving DecidableEq, Repr

/-- Why raw options are refused. -/
inductive OptionFault
  | notObject (type : String)
  | unknown (names : List String)
  | notBoolean (name : String)
  | ignoreNotTexts
  deriving DecidableEq, Repr

/-- The wording of a fault. -/
def OptionFault.message : OptionFault → String
  | .notObject type => "Rule options must be an object, got " ++ type
  | .unknown names => "Unknown rule option(s): " ++ ", ".intercalate names
  | .notBoolean name => "Rule option '" ++ name ++ "' must be a boolean"
  | .ignoreNotTexts => "Rule option 'ignore' must be a list of strings"

namespace RuleOptions

/-- The names of the options. -/
def names : List String := ["dev", "optional", "ignore"]

/-- The value that options are read from: the first item of a list that is no truth value. -/
def argument : Value → Value
  | .list items =>
    (items.find? fun v => match v with
      | .bool _ => false
      | _ => true).getD .null
  | v => v

/-- The truth value that a mapping has for an option. -/
def readFlag (name : String) (entries : List (Value × Value)) : Except OptionFault Bool :=
  match Value.lookup name entries with
  | none => .ok false
  | some (.bool b) => .ok b
  | some _ => .error (.notBoolean name)

/-- The texts in a list that holds nothing else. -/
def textsOf? : List Value → Option (List String)
  | [] => some []
  | .text s :: vs => (textsOf? vs).map (s :: ·)
  | _ :: _ => none

/-- The packages that a mapping says to ignore. -/
def readIgnore (entries : List (Value × Value)) : Except OptionFault (List String) :=
  match Value.lookup "ignore" entries with
  | none => .ok []
  | some (.list items) =>
    match textsOf? items with
    | some texts => .ok texts
    | none => .error .ignoreNotTexts
  | some _ => .error .ignoreNotTexts

/-- The texts of the keys that name no option. -/
def unknownKeys (entries : List (Value × Value)) : List String :=
  entries.filterMap fun e =>
    match e.1 with
    | .text s => if s ∈ names then none else some s
    | k => some k.plain

/-- The options that a mapping with these entries stands for. -/
def ofEntries (entries : List (Value × Value)) : Except OptionFault RuleOptions :=
  match Text.sortedSet (unknownKeys entries) with
  | [] =>
    match readFlag "dev" entries with
    | .error e => .error e
    | .ok dev =>
      match readFlag "optional" entries with
      | .error e => .error e
      | .ok optional =>
        match readIgnore entries with
        | .error e => .error e
        | .ok ignore => .ok ⟨dev, optional, ignore⟩
  | unknown => .error (.unknown unknown)

/-- The options that a value stands for. -/
def ofValue (v : Value) : Except OptionFault RuleOptions :=
  match argument v with
  | .null => .ok {}
  | .bool true => .ok {}
  | .mapping entries => ofEntries entries
  | v => .error (.notObject v.typeName)

/-- The value that stands for options. -/
def toValue (o : RuleOptions) : Value :=
  .ofMembers [("dev", .bool o.dev), ("optional", .bool o.optional), ("ignore", .ofTexts o.ignore)]

/-- A package is one of those never reported. -/
def ignores (o : RuleOptions) (package : String) : Bool := o.ignore.contains package

end RuleOptions

end ImportAudit
