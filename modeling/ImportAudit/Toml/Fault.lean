/-
# ImportAudit.Toml.Fault — what can be wrong with a TOML document.
-/
import ImportAudit.Data.Misuse

namespace ImportAudit.Toml

/-- What is wrong with a document, or with a value in it. -/
inductive Complaint
  | lineEndsInKey
  | textEndsInKey
  | keyCharacter (c : Char)
  | unbalancedQuotes
  | emptyKey
  | unterminated
  | loneBracket
  | groupNotAlone
  | quotedGroup (name : String)
  | groupName (name : String)
  | emptyGroup
  | implicitGroup
  | repeatedGroup (name holder : String)
  | brokenInline
  | inlineWithoutValue
  | inlineValue
  | dateOrNumber
  | repeatedKey
  | noValue
  | booleanCase
  | afterString
  | reservedEscape
  | escape (digits : String)
  | surrogateEscape (digits : String)
  | noFraction
  | noWhole
  | mixedArray
  | integer (digits : String)
  | number (digits : String)
  | long (digits : Nat)
  | clock (unit : String)
  | beyondCharacters
  deriving DecidableEq, Repr

/-- The wording of a complaint. -/
def Complaint.message : Complaint → String
  | .lineEndsInKey => "Key name found without value. Reached end of line."
  | .textEndsInKey => "Key name found without value. Reached end of file."
  | .keyCharacter c =>
    "Found invalid character in key name: '" ++ String.ofList [c] ++
      "'. Try quoting the key name."
  | .unbalancedQuotes => "Unbalanced quotes"
  | .emptyKey => "Found empty keyname. "
  | .unterminated => "Unterminated string found. Reached end of file."
  | .loneBracket => "Opening key group bracket on line by itself."
  | .groupNotAlone => "Key group not on a line by itself."
  | .quotedGroup name => "Invalid group name '" ++ name ++ "' Something went wrong."
  | .groupName name => "Invalid group name '" ++ name ++ "'. Try quoting it."
  | .emptyGroup => "Can't have a keygroup with an empty name"
  | .implicitGroup => "An implicitly defined table can't be an array"
  | .repeatedGroup name holder => "What? " ++ name ++ " already exists?" ++ holder
  | .brokenInline => "Line breaks are not allowed in inlineobjects"
  | .inlineWithoutValue => "Invalid inline table encountered"
  | .inlineValue => "Invalid inline table value encountered"
  | .dateOrNumber => "Invalid date or number"
  | .repeatedKey => "Duplicate keys!"
  | .noValue => "Empty value is invalid"
  | .booleanCase => "Only all lowercase booleans allowed"
  | .afterString => "Found tokens after a closed string. Invalid TOML."
  | .reservedEscape => "Reserved escape sequence used"
  | .escape digits => "Invalid escape sequence: " ++ digits
  | .surrogateEscape digits =>
    "Invalid escape sequence: " ++ digits ++ ". Only scalar unicode points are allowed."
  | .noFraction => "This float is missing digits after the point"
  | .noWhole => "This float doesn't have a leading digit"
  | .mixedArray => "Not a homogeneous array"
  | .integer digits => "invalid literal for int() with base 0: " ++ Text.quoted digits
  | .number digits => "could not convert string to float: " ++ Text.quoted digits
  | .long digits =>
    "Exceeds the limit (4300 digits) for integer string conversion: value has " ++
      toString digits ++ " digits; use sys.set_int_max_str_digits() to increase the limit"
  | .clock unit => unit
  | .beyondCharacters => "chr() arg not in range(0x110000)"

/-- Why a document was not read: a complaint, about a place in it that is given by line, column and
offset once it is known; a text or a list that ended where more was needed; or a value that was used
as what it is not. -/
inductive Fault
  | complaint (c : Complaint)
  | at (c : Complaint) (line column offset : Nat)
  | beyondText
  | beyondList
  | misuse (misuse : Misuse)
  deriving DecidableEq, Repr

namespace Fault

/-- The name of the kind of fault. -/
def kindName : Fault → String
  | .complaint _ => "ValueError"
  | .at _ _ _ _ => "TomlDecodeError"
  | .beyondText | .beyondList => "IndexError"
  | .misuse m => m.kindName

/-- The message of a fault. -/
def message : Fault → String
  | .complaint c => c.message
  | .at c line column offset =>
    c.message ++ " (line " ++ toString line ++ " column " ++ toString column ++
      " char " ++ toString offset ++ ")"
  | .beyondText => "string index out of range"
  | .beyondList => "list index out of range"
  | .misuse m => m.message

/-- A complaint about the place at an offset in a text. -/
def atOffset (text : List Char) (c : Complaint) (offset : Nat) : Fault :=
  let before := text.take offset
  .at c (before.count '\n' + 1) ((before.reverse.takeWhile (· ≠ '\n')).length + 1) offset

/-- A complaint without a place becomes one about the place at an offset. -/
def placed (text : List Char) (offset : Nat) : Fault → Fault
  | .complaint c => atOffset text c offset
  | f => f

end Fault

end ImportAudit.Toml
