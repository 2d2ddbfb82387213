/-
# ImportAudit.Yaml.Cursor — a place in a YAML text.

A cursor knows what is unread, how much was read, and the line and column it is at.  A line ends at
a line feed or at one of three other line ends of Unicode.
-/
import ImportAudit.Yaml.Fault

namespace ImportAudit.Yaml

/-- A place in a text. -/
structure Cursor where
  rest : List Char
  index : Nat := 0
  line : Nat := 0
  column : Nat := 0

/-- A step that reads on from a cursor. -/
abbrev Scan := StateT Cursor (Except Fault)

/-- A character ends a line. -/
def isBreak (c : Char) : Bool :=
  c == '\n' || c == '\r' || c == Char.ofNat 0x85 || c == Char.ofNat 0x2028 || c == Char.ofNat 0x2029

/-- Nothing is left, or a line ends. -/
def endsLine : Option Char → Bool
  | none => true
  | some c => isBreak c

/-- Nothing is left, a line ends, or a space follows. -/
def endsWord : Option Char → Bool
  | some ' ' => true
  | c => endsLine c

/-- Nothing is left, a line ends, or a space or a tab follows. -/
def isBlankOrEnd : Option Char → Bool
  | some '\t' => true
  | c => endsWord c

/-- A letter, a digit, a hyphen or an underscore. -/
def isWordChar (c : Char) : Bool := c.isAlphanum || c == '-' || c == '_'

namespace Cursor

/-- The cursor behind the next character. -/
def step (c : Cursor) : Cursor :=
  match c.rest with
  | [] => c
  | ch :: rest =>
    if isBreak ch && !(ch == '\r' && rest.head? == some '\n') then
      ⟨rest, c.index + 1, c.line + 1, 0⟩
    else if ch = Char.ofNat 0xFEFF then ⟨rest, c.index + 1, c.line, c.column⟩
    else ⟨rest, c.index + 1, c.line, c.column + 1⟩

/-- The cursor behind the next `n` characters. -/
def advance : Nat → Cursor → Cursor
  | 0, c => c
  | n + 1, c => advance n c.step

/-- The cursor is at a mark that separates documents. -/
def atMark (mark : Char) (c : Cursor) : Bool :=
  [mark, mark, mark].isPrefixOf c.rest && isBlankOrEnd c.rest[3]?

/-- The cursor is at one of the marks that separate documents. -/
def atSeparator (c : Cursor) : Bool := c.atMark '-' || c.atMark '.'

end Cursor

namespace Scan

/-- A fault at the cursor. -/
def fail {α : Type} (complaint : String) : Scan α :=
  fun c => .error ⟨.tokens, complaint, c.line, c.column⟩

/-- The character that is `n` places ahead. -/
def peek (n : Nat) : Scan (Option Char) := do pure (← get).rest[n]?

/-- Goes `n` characters ahead. -/
def skip (n : Nat) : Scan Unit := modify (Cursor.advance n)

/-- Takes the characters up to the first that does not satisfy `p`. -/
def takeWhile (p : Char → Bool) : Scan (List Char) := do
  let taken := (← get).rest.takeWhile p
  skip taken.length
  pure taken

/-- Takes spaces. -/
def spaces : Scan (List Char) := takeWhile (· == ' ')

/-- Takes a line end, which is read as a line feed unless it separates lines or paragraphs. -/
def lineEnd : Scan (List Char) := do
  match (← get).rest with
  | '\r' :: '\n' :: _ => skip 2; pure ['\n']
  | ch :: _ =>
    if isBreak ch then
      skip 1
      pure (if ch.toNat ≥ 0x2028 then [ch] else ['\n'])
    else pure []
  | [] => pure []

end Scan

end ImportAudit.Yaml
