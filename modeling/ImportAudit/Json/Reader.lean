/-
# ImportAudit.Json.Reader — reading JSON, with the place of the first fault.

Beside standard JSON the reader accepts the three numbers that are not finite.  Only the space, the
tab, the line feed and the carriage return are blank.  What is unread is a list of characters, and
a fault remembers what was unread where it arose, from which the text gives its line and column.
Arrays and objects may lie within one another up to a limit, and an integer may have up to 4300
digits.
-/
import ImportAudit.Data.Value

namespace ImportAudit.Json

/-! ## Faults -/

/-- What can be wrong with a JSON text. -/
inductive Complaint
  | byteOrderMark
  | expectingValue
  | expectingName
  | expectingColon
  | expectingComma
  | unterminatedString
  | controlCharacter
  | invalidEscape
  | invalidUnicodeEscape
  | extraData
  deriving DecidableEq, Repr

/-- The wording of a complaint. -/
def Complaint.message : Complaint → String
  | .byteOrderMark => "Unexpected UTF-8 BOM (decode using utf-8-sig)"
  | .expectingValue => "Expecting value"
  | .expectingName => "Expecting property name enclosed in double quotes"
  | .expectingColon => "Expecting ':' delimiter"
  | .expectingComma => "Expecting ',' delimiter"
  | .unterminatedString => "Unterminated string starting at"
  | .controlCharacter => "Invalid control character at"
  | .invalidEscape => "Invalid \\escape"
  | .invalidUnicodeEscape => "Invalid \\uXXXX escape"
  | .extraData => "Extra data"

/-- Why a text was not read: it is malformed where `rest` was unread, an integer has too many
digits, or arrays and objects lie too deep within one another. -/
inductive Fault
  | malformed (complaint : Complaint) (rest : List Char)
  | longInteger (digits : Nat)
  | tooDeep (array : Bool)
  deriving Repr

/-- The line, the column and the offset at which `rest` is the end of a text. -/
def place (text rest : List Char) : Nat × Nat × Nat :=
  let offset := text.length - rest.length
  let before := text.take offset
  let line := before.count '\n' + 1
  let column := (before.reverse.takeWhile (· ≠ '\n')).length + 1
  (line, column, offset)

/-- A message about the place in `text` where `rest` was unread. -/
def atPlace (message : String) (text rest : List Char) : String :=
  let p := place text rest
  message ++ ": line " ++ toString p.1 ++ " column " ++ toString p.2.1 ++ " (char " ++
    toString p.2.2 ++ ")"

/-- The most digits that an integer may have. -/
def maxDigits : Nat := 4300

/-- The message of a fault found in `text`. -/
def Fault.message (text : List Char) : Fault → String
  | .malformed complaint rest => atPlace complaint.message text rest
  | .longInteger digits =>
    "Exceeds the limit (4300 digits) for integer string conversion: value has " ++
      toString digits ++ " digits; use sys.set_int_max_str_digits() to increase the limit"
  | .tooDeep array =>
    "maximum recursion depth exceeded while decoding a JSON " ++
      (if array then "array" else "object") ++ " from a unicode string"

/-! ## Blanks and digits -/

/-- A blank character. -/
def isBlank (c : Char) : Bool := c == ' ' || c == '\t' || c == '\n' || c == '\r'

/-- What is unread after blanks. -/
def skipBlank (cs : List Char) : List Char := cs.dropWhile isBlank

/-- The value of a hexadecimal digit. -/
def hexValue? (c : Char) : Option Nat :=
  if c.isDigit then some (c.toNat - '0'.toNat)
  else if 'a' ≤ c ∧ c ≤ 'f' then some (c.toNat - 'a'.toNat + 10)
  else if 'A' ≤ c ∧ c ≤ 'F' then some (c.toNat - 'A'.toNat + 10)
  else none

/-- The value of four hexadecimal digits. -/
def hexValue4? (a b c d : Char) : Option Nat := do
  let a ← hexValue? a
  let b ← hexValue? b
  let c ← hexValue? c
  let d ← hexValue? d
  pure (((a * 16 + b) * 16 + c) * 16 + d)

/-- The number that a list of decimal digits stands for. -/
def digitsValue (ds : List Char) : Nat :=
  ds.foldl (fun n d => n * 10 + (d.toNat - '0'.toNat)) 0

/-! ## Strings -/

/-- The character that a short escape stands for. -/
def shortEscape? (c : Char) : Option Char :=
  match c with
  | '"' => some '"'
  | '\\' => some '\\'
  | '/' => some '/'
  | 'b' => some (Char.ofNat 8)
  | 'f' => some (Char.ofNat 12)
  | 'n' => some '\n'
  | 'r' => some '\r'
  | 't' => some '\t'
  | _ => none

/-- The number is the first half of a surrogate pair. -/
def isHighSurrogate (n : Nat) : Bool := 0xD800 ≤ n && n ≤ 0xDBFF

/-- The number is the second half of a surrogate pair. -/
def isLowSurrogate (n : Nat) : Bool := 0xDC00 ≤ n && n ≤ 0xDFFF

/-- The character of a code unit; half a surrogate pair is no character and becomes the
replacement character. -/
def unitChar (n : Nat) : Char :=
  if isHighSurrogate n || isLowSurrogate n then Char.ofNat 0xFFFD else Char.ofNat n

/-- The character of a surrogate pair. -/
def pairChar (high low : Nat) : Char :=
  Char.ofNat (0x10000 + (high - 0xD800) * 0x400 + (low - 0xDC00))

/-- Reads what follows the backslash of an escape: the character that the escape stands for and
what is unread behind it.  Two escapes that form a surrogate pair are read together.  Four digits
count only if the text goes on behind them. -/
def readEscape (cs : List Char) : Except Fault (Char × List Char) :=
  match cs with
  | 'u' :: a :: b :: c :: d :: e :: rest =>
    match hexValue4? a b c d, e :: rest with
    | none, _ => .error (.malformed .invalidUnicodeEscape cs)
    | some n, '\\' :: 'u' :: a' :: b' :: c' :: d' :: f :: rest' =>
      if isHighSurrogate n then
        match hexValue4? a' b' c' d' with
        | none =>
          .error (.malformed .invalidUnicodeEscape ('u' :: a' :: b' :: c' :: d' :: f :: rest'))
        | some m =>
          if isLowSurrogate m then .ok (pairChar n m, f :: rest') else .ok (unitChar n, e :: rest)
      else .ok (unitChar n, e :: rest)
    | some n, rest => .ok (unitChar n, rest)
  | 'u' :: _ => .error (.malformed .invalidUnicodeEscape cs)
  | c :: rest =>
    match shortEscape? c with
    | some e => .ok (e, rest)
    | none => .error (.malformed .invalidEscape ('\\' :: cs))
  | [] => .error (.malformed .unterminatedString cs)

/-- Reads the rest of a string that began at `start`; `chars` are the characters so far, newest
first. -/
def readString (start : List Char) :
    Nat → List Char → List Char → Except Fault (String × List Char)
  | 0, _, _ => .error (.malformed .unterminatedString start)
  | fuel + 1, chars, cs =>
    match cs with
    | [] => .error (.malformed .unterminatedString start)
    | ['\\'] => .error (.malformed .unterminatedString start)
    | '"' :: rest => .ok (String.ofList chars.reverse, rest)
    | '\\' :: rest =>
      match readEscape rest with
      | .error e => .error e
      | .ok (c, rest) => readString start fuel (c :: chars) rest
    | c :: rest =>
      if c.toNat < 0x20 then .error (.malformed .controlCharacter cs)
      else readString start fuel (c :: chars) rest

/-! ## Numbers -/

/-- Splits a text behind the digits that it begins with. -/
def spanDigits (cs : List Char) : List Char × List Char := cs.span Char.isDigit

/-- Reads the digits of a fraction with the point before them, if they are there. -/
def readFraction (cs : List Char) : List Char × List Char :=
  match cs with
  | '.' :: rest =>
    match spanDigits rest with
    | ([], _) => ([], cs)
    | (ds, rest) => (ds, rest)
  | _ => ([], cs)

/-- The sign that a text begins with, whether it is a minus, and what follows it. -/
def readSign (cs : List Char) : Bool × List Char :=
  match cs with
  | '-' :: rest => (true, rest)
  | '+' :: rest => (false, rest)
  | _ => (false, cs)

/-- Reads an exponent with the mark before it, if digits are there. -/
def readExponent (cs : List Char) : Option Int × List Char :=
  match cs with
  | c :: rest =>
    if c = 'e' ∨ c = 'E' then
      let s := readSign rest
      match spanDigits s.2 with
      | ([], _) => (none, cs)
      | (ds, rest) =>
        let n : Int := digitsValue ds
        (some (if s.1 then -n else n), rest)
    else (none, cs)
  | [] => (none, cs)

/-- The digits before the point: a single zero, or digits that do not begin with one. -/
def readWhole (cs : List Char) : List Char × List Char :=
  match cs with
  | '0' :: rest => (['0'], rest)
  | _ => spanDigits cs

/-- The value of a number with the given parts. -/
def numberValue (negative : Bool) (whole fraction : List Char) (exponent : Option Int) :
    Except Fault Value :=
  if fraction = [] ∧ exponent = none then
    if maxDigits < whole.length then .error (.longInteger whole.length)
    else
      let n : Int := digitsValue whole
      .ok (.int (if negative then -n else n))
  else
    .ok (.float (.ofDecimal negative (digitsValue (whole ++ fraction))
      (exponent.getD 0 - fraction.length)))

/-- Reads a number, which begins at `cs`. -/
def readNumber (cs : List Char) : Except Fault (Value × List Char) :=
  let negative := cs.head? = some '-'
  match readWhole (if negative then cs.tail else cs) with
  | ([], _) => .error (.malformed .expectingValue cs)
  | (whole, rest) =>
    let (fraction, rest) := readFraction rest
    let (exponent, rest) := readExponent rest
    match numberValue negative whole fraction exponent with
    | .error e => .error e
    | .ok v => .ok (v, rest)

/-! ## Values -/

/-- The names of values that are neither strings nor numbers with digits. -/
def names : List (List Char × Value) :=
  [("null".toList, .null), ("true".toList, .bool true), ("false".toList, .bool false),
    ("NaN".toList, .float .nan), ("Infinity".toList, .float (.infinite false)),
    ("-Infinity".toList, .float (.infinite true))]

/-- Reads the named value that the text begins with, if there is one. -/
def readName? (cs : List Char) : Option (Value × List Char) :=
  names.findSome? fun (name, v) =>
    if name.isPrefixOf cs then some (v, cs.drop name.length) else none

/-- Reads the items of an array from the first one on, and the bracket that closes it. -/
def readItems (readValue : List Char → Except Fault (Value × List Char)) :
    Nat → List Value → List Char → Except Fault (List Value × List Char)
  | 0, _, cs => .error (.malformed .expectingValue cs)
  | fuel + 1, items, cs =>
    match readValue cs with
    | .error e => .error e
    | .ok (v, rest) =>
      match skipBlank rest with
      | ']' :: rest => .ok ((v :: items).reverse, rest)
      | ',' :: rest => readItems readValue fuel (v :: items) (skipBlank rest)
      | rest => .error (.malformed .expectingComma rest)

/-- Reads the name of a member, the colon behind it and the blanks around that. -/
def readMemberName (size : Nat) (cs : List Char) : Except Fault (String × List Char) :=
  match cs with
  | '"' :: rest =>
    match readString cs size [] rest with
    | .error e => .error e
    | .ok (name, rest) =>
      match skipBlank rest with
      | ':' :: rest => .ok (name, skipBlank rest)
      | rest => .error (.malformed .expectingColon rest)
  | _ => .error (.malformed .expectingName cs)

/-- Reads the members of an object from the first one on, and the brace that closes it. -/
def readMembers (size : Nat) (readValue : List Char → Except Fault (Value × List Char)) :
    Nat → List (Value × Value) → List Char → Except Fault (List (Value × Value) × List Char)
  | 0, _, cs => .error (.malformed .expectingName cs)
  | fuel + 1, members, cs =>
    match readMemberName size cs with
    | .error e => .error e
    | .ok (name, rest) =>
      match readValue rest with
      | .error e => .error e
      | .ok (v, rest) =>
        let members := Value.insertEntry (.text name) v members
        match skipBlank rest with
        | '}' :: rest => .ok (members, rest)
        | ',' :: rest => readMembers size readValue fuel members (skipBlank rest)
        | rest => .error (.malformed .expectingComma rest)

/-- Reads a value that begins at the first character; `depth` more arrays and objects may lie
within one another, and none has more than `size` characters. -/
def readValue (size : Nat) : Nat → List Char → Except Fault (Value × List Char)
  | depth, cs =>
    match cs with
    | [] => .error (.malformed .expectingValue cs)
    | '"' :: rest =>
      match readString cs size [] rest with
      | .error e => .error e
      | .ok (s, rest) => .ok (.text s, rest)
    | '[' :: rest =>
      match depth with
      | 0 => .error (.tooDeep true)
      | depth + 1 =>
        match skipBlank rest with
        | ']' :: rest => .ok (.list [], rest)
        | rest =>
          match readItems (readValue size depth) size [] rest with
          | .error e => .error e
          | .ok (items, rest) => .ok (.list items, rest)
    | '{' :: rest =>
      match depth with
      | 0 => .error (.tooDeep false)
      | depth + 1 =>
        match skipBlank rest with
        | '}' :: rest => .ok (.mapping [], rest)
        | rest =>
          match readMembers size (readValue size depth) size [] rest with
          | .error e => .error e
          | .ok (members, rest) => .ok (.mapping members, rest)
    | _ =>
      match readName? cs with
      | some r => .ok r
      | none => readNumber cs

/-- How many arrays and objects may lie within one another. -/
def maxDepth : Nat := 990

/-- Reads a text that holds one value and nothing else but blanks. -/
def read (text : List Char) : Except Fault Value :=
  if text.head? = some (Char.ofNat 0xFEFF) then .error (.malformed .byteOrderMark text)
  else
    match readValue (text.length + 1) maxDepth (skipBlank text) with
    | .error e => .error e
    | .ok (v, rest) =>
      match skipBlank rest with
      | [] => .ok v
      | rest => .error (.malformed .extraData rest)

end ImportAudit.Json
