/-
# ImportAudit.Text.Position — offsets, lines and columns.

An offset counts characters from zero; lines and columns count from one.  Only `'\n'` begins a new
line.  A text also has byte offsets, those of its UTF-8 form, and `charOffset` leads back from a
byte offset that lies between two characters to the offset in characters.
-/
import ImportAudit.Text.Bounds

namespace ImportAudit.Text

/-- The offsets at which lines begin, in order, the first character having the offset `i`. -/
def lineStartsFrom : Nat → List Char → List Nat
  | _, [] => []
  | i, c :: cs =>
    if c = '\n' then (i + 1) :: lineStartsFrom (i + 1) cs else lineStartsFrom (i + 1) cs

/-- The offsets at which the lines of a text begin, in order. -/
def lineStarts (text : List Char) : List Nat := 0 :: lineStartsFrom 0 text

/-- The line and the column of an offset, given where the lines begin. -/
def lineAndColumn (starts : Array Nat) (offset : Nat) : Nat × Nat :=
  let line := rank starts offset
  (line, offset - starts[line - 1]?.getD 0 + 1)

/-- The number of bytes of the UTF-8 form of the first `i` characters. -/
def byteOffset : List Char → Nat → Nat
  | [], _ => 0
  | _, 0 => 0
  | c :: cs, i + 1 => c.utf8Size + byteOffset cs i

/-- The number of characters whose UTF-8 forms fit into the first `b` bytes. -/
def charOffset : List Char → Nat → Nat
  | [], _ => 0
  | c :: cs, b => if c.utf8Size ≤ b then charOffset cs (b - c.utf8Size) + 1 else 0

end ImportAudit.Text
