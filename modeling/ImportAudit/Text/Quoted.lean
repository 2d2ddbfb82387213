/-
# ImportAudit.Text.Quoted — quotations as they appear in messages.

A quotation is put between single quotes, unless the text holds a single quote and no double one.
The quote in use, the backslash and the characters that cannot be shown are escaped, the latter by
their code point in two, four or eight hexadecimal digits.
-/
import ImportAudit.Text.Printable

namespace ImportAudit.Text

/-- The lower-case hexadecimal digits of a number, at least `width` of them. -/
def hexDigits (width n : Nat) : List Char :=
  let ds := Nat.toDigits 16 n
  List.replicate (width - ds.length) '0' ++ ds

/-- The escape of a character that cannot be shown. -/
def escapeByCode (c : Char) : List Char :=
  let n := c.toNat
  if n < 0x100 then '\\' :: 'x' :: hexDigits 2 n
  else if n < 0x10000 then '\\' :: 'u' :: hexDigits 4 n
  else '\\' :: 'U' :: hexDigits 8 n

/-- A character of a quotation in the quotes `q`. -/
def quoteChar (q c : Char) : List Char :=
  if c = q ∨ c = '\\' then ['\\', c]
  else if c = '\n' then ['\\', 'n']
  else if c = '\r' then ['\\', 'r']
  else if c = '\t' then ['\\', 't']
  else if isPrintable c then [c]
  else escapeByCode c

/-- The quotes that a text is put between. -/
def quoteFor (cs : List Char) : Char :=
  if cs.contains '\'' && !cs.contains '"' then '"' else '\''

/-- A text as a quotation. -/
def quoted (text : String) : String :=
  let cs := text.toList
  let q := quoteFor cs
  String.ofList (q :: cs.flatMap (quoteChar q) ++ [q])

end ImportAudit.Text
