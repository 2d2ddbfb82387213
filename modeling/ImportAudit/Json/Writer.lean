/-
# ImportAudit.Json.Writer — writing values as JSON.

A value is written on one line, or with every item and member on a line of its own, indented by two
spaces per level; an empty list or mapping stays on its line either way.  Characters beyond ASCII
are written as they are or as escapes, those that need it as surrogate pairs.  A key that is no text
is written as the text of its value.
-/
import ImportAudit.Data.Value

namespace ImportAudit.Json

/-- How values are laid out: on several lines or on one, with escapes for all that is not ASCII or
only where escapes are needed. -/
structure Style where
  indented : Bool
  ascii : Bool

/-- One line, ASCII only: the form of log records. -/
def Style.line : Style := ⟨false, true⟩

/-- Several lines, every character as it is: the form of results. -/
def Style.report : Style := ⟨true, false⟩

/-- Several lines, ASCII only: the form of configuration files. -/
def Style.file : Style := ⟨true, true⟩

/-! ## Strings -/

/-- The escape of one code unit. -/
def unitEscape (n : Nat) : List Char := '\\' :: 'u' :: Text.hexDigits 4 n

/-- The escape of a character: one unit, or the two of a surrogate pair. -/
def charEscape (c : Char) : List Char :=
  let n := c.toNat
  if n < 0x10000 then unitEscape n
  else
    unitEscape (0xD800 + (n - 0x10000) / 0x400) ++ unitEscape (0xDC00 + (n - 0x10000) % 0x400)

/-- A character inside a string. -/
def stringChar (ascii : Bool) (c : Char) : List Char :=
  match c with
  | '"' => ['\\', '"']
  | '\\' => ['\\', '\\']
  | '\n' => ['\\', 'n']
  | '\r' => ['\\', 'r']
  | '\t' => ['\\', 't']
  | c =>
    if c.toNat = 8 then ['\\', 'b']
    else if c.toNat = 12 then ['\\', 'f']
    else if c.toNat < 0x20 then unitEscape c.toNat
    else if ascii && 0x7F ≤ c.toNat then charEscape c
    else [c]

/-- A text as a string. -/
def writeString (ascii : Bool) (s : String) : String :=
  "\"" ++ String.ofList (s.toList.flatMap (stringChar ascii)) ++ "\""

/-! ## Values -/

/-- The text of a key. -/
def keyText : Value → String
  | .text s => s
  | .null => "null"
  | .bool b => if b then "true" else "false"
  | .int i => toString i
  | .float x => x.toJson
  | v => v.plain

/-- A line break and the indentation of a level, if the style has any. -/
def Style.newline (style : Style) (level : Nat) : String :=
  if style.indented then "\n" ++ String.ofList (List.replicate (2 * level) ' ') else ""

/-- What stands between two items. -/
def Style.separator (style : Style) (level : Nat) : String :=
  if style.indented then "," ++ style.newline level else ", "

mutual

/-- The text of a value whose items lie at the level `level + 1`. -/
def write (style : Style) (level : Nat) : Value → String
  | .null => "null"
  | .bool b => if b then "true" else "false"
  | .int i => toString i
  | .float x => x.toJson
  | .text s => writeString style.ascii s
  | .list [] => "[]"
  | .list (v :: vs) =>
    "[" ++ style.newline (level + 1) ++ write style (level + 1) v ++
      writeItems style (level + 1) vs ++ style.newline level ++ "]"
  | .mapping [] => "\x7b\x7d"
  | .mapping ((k, v) :: es) =>
    "\x7b" ++ style.newline (level + 1) ++ writeString style.ascii (keyText k) ++ ": " ++
      write style (level + 1) v ++ writeMembers style (level + 1) es ++ style.newline level ++
      "\x7d"
  | .foreign f => writeString style.ascii f.plain

/-- The texts of further items, each behind a separator. -/
def writeItems (style : Style) (level : Nat) : List Value → String
  | [] => ""
  | v :: vs => style.separator level ++ write style level v ++ writeItems style level vs

/-- The texts of further members, each behind a separator. -/
def writeMembers (style : Style) (level : Nat) : List (Value × Value) → String
  | [] => ""
  | (k, v) :: es =>
    style.separator level ++ writeString style.ascii (keyText k) ++ ": " ++ write style level v ++
      writeMembers style level es

end

/-- The text of a value. -/
def render (style : Style) (v : Value) : String := write style 0 v

/-! ## Values that have no JSON form -/

mutual

/-- The type of the first part of a value that has no JSON form, and whether it is a key. -/
def unwritable? : Value → Option (Bool × String)
  | .list items => unwritableItem? items
  | .mapping entries => unwritableMember? entries
  | .foreign f => some (false, f.type)
  | _ => none

/-- The type of the first part of the items that has no JSON form. -/
def unwritableItem? : List Value → Option (Bool × String)
  | [] => none
  | v :: vs => (unwritable? v).or (unwritableItem? vs)

/-- The type of the first part of the members that has no JSON form. -/
def unwritableMember? : List (Value × Value) → Option (Bool × String)
  | [] => none
  | (k, v) :: es =>
    match k with
    | .list _ => some (true, "tuple")
    | .foreign f => some (true, f.type)
    | _ => (unwritable? v).or (unwritableMember? es)

end

end ImportAudit.Json
