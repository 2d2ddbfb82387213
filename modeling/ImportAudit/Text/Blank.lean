/-
# ImportAudit.Text.Blank — which characters separate, and which make up a name.

Scripts are written with more blank characters than a plain text has: beside the Unicode property
`White_Space` there are the joiners and the byte-order mark, all of which stand between two words
without belonging to either.  Everything that is neither blank, nor a control character, nor one of
the punctuation characters of the language may occur in a name, so no table of letters is needed.
-/

namespace ImportAudit.Text

/-! ## Blank characters -/

/-- The space separators of Unicode. -/
def isSpaceSeparator (c : Char) : Bool :=
  let n := c.toNat
  n == 0x20 || n == 0xA0 || n == 0x1680 || (0x2000 ≤ n && n ≤ 0x200A) || n == 0x202F ||
    n == 0x205F || n == 0x3000

/-- The Unicode property `White_Space`. -/
def isWhiteSpace (c : Char) : Bool :=
  let n := c.toNat
  (0x09 ≤ n && n ≤ 0x0D) || n == 0x85 || n == 0x2028 || n == 0x2029 || isSpaceSeparator c

/-- Blank in a script: white space, the zero-width space, the word joiner and the byte-order
mark. -/
def isScriptBlank (c : Char) : Bool :=
  isWhiteSpace c || c.toNat == 0x200B || c.toNat == 0x2060 || c.toNat == 0xFEFF

/-- The four characters that end a line of a script, and with it a `//` comment. -/
def isLineEnd (c : Char) : Bool :=
  c == '\n' || c == '\r' || c.toNat == 0x2028 || c.toNat == 0x2029

/-- A line end is blank. -/
theorem isScriptBlank_of_isLineEnd {c : Char} (h : isLineEnd c = true) :
    isScriptBlank c = true := by
  simp only [isLineEnd, Bool.or_eq_true, beq_iff_eq] at h
  rcases h with ((rfl | rfl) | h) | h
  · rfl
  · rfl
  · simp [isScriptBlank, isWhiteSpace, h]
  · simp [isScriptBlank, isWhiteSpace, h]

/-! ## Characters of a name -/

/-- The punctuation of the language: no name contains one of these. -/
def isPunctuation (c : Char) : Bool :=
  match c with
  | ':' | ';' | '`' | '"' | '\'' | '@' | '#' | '.' | ',' | '|' | '^' | '&' | '<' | '=' | '>'
  | '+' | '-' | '*' | '/' | '\\' | '%' | '?' | '!' | '~' | '(' | ')' | '[' | ']' | '{' | '}' => true
  | _ => false

/-- A character that may continue a name. -/
def isNamePart (c : Char) : Bool :=
  0x20 ≤ c.toNat && !isScriptBlank c && !isPunctuation c

/-- A character that may begin a name: any part of a name except a digit. -/
def isNameStart (c : Char) : Bool :=
  isNamePart c && !c.isDigit

end ImportAudit.Text
