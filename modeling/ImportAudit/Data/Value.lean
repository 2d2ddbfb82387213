/-
# ImportAudit.Data.Value — the values that a configuration or a manifest may hold.

Documents in JSON, YAML and TOML are read into one type of value.  Mappings keep the order in which
their keys first appeared and the value that a key was given last; two numbers that are equal are
one key, and so are a truth value and the number that it counts as.
-/
import ImportAudit.Number.Decimal
import ImportAudit.Text.Quoted

namespace ImportAudit

/-- A value that only some formats can write, known by its type, the family that the type belongs to
if it does to one, and its two texts: the plain one and the one inside of lists and mappings. -/
structure Foreign where
  family : String
  type : String
  plain : String
  nested : String
  deriving DecidableEq, Repr

/-- A value of a document. -/
inductive Value
  | null
  | bool (b : Bool)
  | int (i : Int)
  | float (x : Number.Binary64)
  | text (s : String)
  | list (items : List Value)
  | mapping (entries : List (Value × Value))
  | foreign (f : Foreign)
  deriving Repr

namespace Value

/-! ## Types and truth -/

/-- The name of the type of a value in messages. -/
def typeName : Value → String
  | .null => "NoneType"
  | .bool _ => "bool"
  | .int _ => "int"
  | .float _ => "float"
  | .text _ => "str"
  | .list _ => "list"
  | .mapping _ => "dict"
  | .foreign f => f.type

/-- The name of the type of a value, behind that of its family if it belongs to one. -/
def fullTypeName : Value → String
  | .foreign f => if f.family = "" then f.type else f.family ++ "." ++ f.type
  | v => v.typeName

/-- A value counts as true unless it is empty, zero or null. -/
def truthy : Value → Bool
  | .null => false
  | .bool b => b
  | .int i => i != 0
  | .float x => !x.isZero
  | .text s => s != ""
  | .list items => !items.isEmpty
  | .mapping entries => !entries.isEmpty
  | .foreign _ => true

/-! ## Texts -/

mutual

/-- The text of a value inside of a list or a mapping. -/
def nested : Value → String
  | .null => "None"
  | .bool b => if b then "True" else "False"
  | .int i => toString i
  | .float x => x.toText
  | .text s => Text.quoted s
  | .list items => "[" ++ nestedItems items ++ "]"
  | .mapping entries => "\x7b" ++ nestedEntries entries ++ "\x7d"
  | .foreign f => f.nested

/-- The texts of items, separated by commas. -/
def nestedItems : List Value → String
  | [] => ""
  | [v] => nested v
  | v :: vs => nested v ++ ", " ++ nestedItems vs

/-- The texts of entries, separated by commas. -/
def nestedEntries : List (Value × Value) → String
  | [] => ""
  | [(k, v)] => nested k ++ ": " ++ nested v
  | (k, v) :: es => nested k ++ ": " ++ nested v ++ ", " ++ nestedEntries es

end

/-- The text of a value in a message. -/
def plain : Value → String
  | .text s => s
  | .foreign f => f.plain
  | v => nested v

/-! ## Mappings -/

/-- The number that a key counts as, as a mantissa and an exponent of two, if it is a number. -/
def keyNumber? : Value → Option (Int × Int)
  | .bool b => some (if b then 1 else 0, 0)
  | .int i => some (i, 0)
  | .float (.finite negative m e) => some (if negative then -(m : Int) else m, e)
  | _ => none

/-- Two numbers `a.1 * 2 ^ a.2` and `b.1 * 2 ^ b.2` are equal. -/
def sameNumber (a b : Int × Int) : Bool :=
  let e := min a.2 b.2
  a.1 * (Nat.pow 2 (a.2 - e).toNat : Nat) == b.1 * (Nat.pow 2 (b.2 - e).toNat : Nat)

/-- Two values are the same key of a mapping. -/
def sameKey (a b : Value) : Bool :=
  match a, b with
  | .text s, .text t => s == t
  | .null, .null => true
  | .foreign f, .foreign g => f == g
  | .float (.infinite s), .float (.infinite t) => s == t
  | a, b =>
    match a.keyNumber?, b.keyNumber? with
    | some x, some y => sameNumber x y
    | _, _ => false

/-- The entries after `key` was given `value`: its entry changes, or a new one is added. -/
def insertEntry (key value : Value) : List (Value × Value) → List (Value × Value)
  | [] => [(key, value)]
  | (k, v) :: es => if sameKey k key then (k, value) :: es else (k, v) :: insertEntry key value es

/-- The entries that result when keys are given values one after the other. -/
def insertAll (entries : List (Value × Value)) : List (Value × Value) :=
  entries.foldl (fun es e => insertEntry e.1 e.2 es) []

/-- The value of a textual key. -/
def lookup (key : String) : List (Value × Value) → Option Value
  | [] => none
  | (.text k, v) :: es => if k = key then some v else lookup key es
  | _ :: es => lookup key es

/-- The member of a mapping with the given name. -/
def member? (v : Value) (key : String) : Option Value :=
  match v with
  | .mapping entries => lookup key entries
  | _ => none

/-- The textual keys of a mapping. -/
def textKeys (entries : List (Value × Value)) : List String :=
  entries.filterMap fun e =>
    match e.1 with
    | .text s => some s
    | _ => none

/-- A mapping with textual keys. -/
def ofMembers (members : List (String × Value)) : Value :=
  .mapping (members.map fun m => (.text m.1, m.2))

/-- A list of texts. -/
def ofTexts (texts : List String) : Value := .list (texts.map .text)

end Value

end ImportAudit
