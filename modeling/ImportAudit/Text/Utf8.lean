/-
# ImportAudit.Text.Utf8 — reading bytes as text.

A text is stored as UTF-8.  Bytes that are no text are refused with their place, or stand for one
replacement character per beginning that cannot be continued: the longest run of bytes that could
have begun a character, and at least one byte.
-/

namespace ImportAudit.Text.Utf8

/-- Why bytes are no text. -/
inductive Reason
  | start
  | continuation
  | ended
  deriving DecidableEq, Repr

/-- The wording of a reason. -/
def Reason.message : Reason → String
  | .start => "invalid start byte"
  | .continuation => "invalid continuation byte"
  | .ended => "unexpected end of data"

/-- Bytes that are no text: how many bytes lie before them, the bytes, and the reason. -/
structure Fault where
  position : Nat
  bytes : List UInt8
  reason : Reason
  deriving DecidableEq, Repr

/-- A byte as two hexadecimal digits. -/
def byteText (b : UInt8) : String :=
  let ds := Nat.toDigits 16 b.toNat
  "0x" ++ String.ofList (List.replicate (2 - ds.length) '0' ++ ds)

/-- The message of a fault. -/
def Fault.message (f : Fault) : String :=
  let what := match f.bytes with
    | [b] => "byte " ++ byteText b ++ " in position " ++ toString f.position
    | bs =>
      "bytes in position " ++ toString f.position ++ "-" ++
        toString (f.position + bs.length - 1)
  "'utf-8' codec can't decode " ++ what ++ ": " ++ f.reason.message

/-! ## One character -/

/-- A byte that continues a character. -/
def isContinuation (b : UInt8) : Bool := 0x80 ≤ b && b ≤ 0xBF

/-- How many bytes follow a first byte, the bounds of the second one, and the bits of the first. -/
def leading? (b : UInt8) : Option (Nat × UInt8 × UInt8 × Nat) :=
  if b ≤ 0x7F then some (0, 0x80, 0xBF, b.toNat)
  else if b < 0xC2 then none
  else if b ≤ 0xDF then some (1, 0x80, 0xBF, b.toNat - 0xC0)
  else if b = 0xE0 then some (2, 0xA0, 0xBF, 0)
  else if b = 0xED then some (2, 0x80, 0x9F, 0xD)
  else if b ≤ 0xEF then some (2, 0x80, 0xBF, b.toNat - 0xE0)
  else if b = 0xF0 then some (3, 0x90, 0xBF, 0)
  else if b ≤ 0xF3 then some (3, 0x80, 0xBF, b.toNat - 0xF0)
  else if b = 0xF4 then some (3, 0x80, 0x8F, 4)
  else none

/-- Takes `n` more bytes of a character, the first of them within the bounds: the code point and
how many bytes it took, or how many bytes were right and what is wrong behind them. -/
def continued : Nat → UInt8 → UInt8 → Nat → Nat → List UInt8 → Except (Nat × Reason) (Nat × Nat)
  | 0, _, _, value, taken, _ => .ok (value, taken)
  | _ + 1, _, _, _, taken, [] => .error (taken, .ended)
  | n + 1, low, high, value, taken, b :: bs =>
    if low ≤ b && b ≤ high then
      continued n 0x80 0xBF (value * 64 + (b.toNat - 0x80)) (taken + 1) bs
    else .error (taken, .continuation)

/-- The character at the beginning of bytes and how many more bytes it takes, or how many more
bytes belong to what is no character, and why it is none. -/
def decodeFirst (b : UInt8) (bs : List UInt8) : Except (Nat × Reason) (Char × Nat) :=
  match leading? b with
  | none => .error (0, .start)
  | some (n, low, high, bits) =>
    match continued n low high bits 0 bs with
    | .ok (value, taken) => .ok (Char.ofNat value, taken)
    | .error e => .error e

/-! ## Whole texts -/

/-- Decodes bytes, `position` of which lie before them; `fuel` bounds their number. -/
def decodeFrom : Nat → Nat → List UInt8 → Except Fault (List Char)
  | _, _, [] => .ok []
  | 0, _, _ => .ok []
  | fuel + 1, position, b :: bs =>
    match decodeFirst b bs with
    | .error (more, reason) => .error ⟨position, b :: bs.take more, reason⟩
    | .ok (c, more) =>
      match decodeFrom fuel (position + more + 1) (bs.drop more) with
      | .error e => .error e
      | .ok cs => .ok (c :: cs)

/-- The text that bytes stand for. -/
def decode (bytes : List UInt8) : Except Fault (List Char) := decodeFrom bytes.length 0 bytes

/-- The character that stands for bytes that are no text. -/
def replacement : Char := Char.ofNat 0xFFFD

/-- Decodes bytes, with replacements for those that are no text; `fuel` bounds their number. -/
def repairFrom : Nat → List UInt8 → List Char
  | _, [] => []
  | 0, _ => []
  | fuel + 1, b :: bs =>
    match decodeFirst b bs with
    | .error (more, _) => replacement :: repairFrom fuel (bs.drop more)
    | .ok (c, more) => c :: repairFrom fuel (bs.drop more)

/-- The text that bytes stand for, with replacements for those that are no text. -/
def repair (bytes : List UInt8) : List Char := repairFrom bytes.length bytes

/-- The bytes that a text is stored as. -/
def encode (text : String) : List UInt8 := text.toUTF8.toList

/-! ## Line ends -/

/-- Every line end becomes a single line feed. -/
def unifyLines : List Char → List Char
  | [] => []
  | '\r' :: '\n' :: cs => '\n' :: unifyLines cs
  | '\r' :: cs => '\n' :: unifyLines cs
  | c :: cs => c :: unifyLines cs

end ImportAudit.Text.Utf8
