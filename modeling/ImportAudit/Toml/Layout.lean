/-
# ImportAudit.Toml.Layout — where the lines of a TOML text end.

A text is gone through once, character by character, to tell names from values and texts from
brackets.  Comments become blanks, and so do line ends within arrays, after which every line that is
left holds a header, an entry, or a part of a text of several lines.
-/
import ImportAudit.Text.Letters
import ImportAudit.Text.Trim
import ImportAudit.Toml.Fault

namespace ImportAudit.Toml

/-- What part of an entry a character belongs to. -/
inductive Part
  | value
  | name
  | afterName
  deriving DecidableEq, Repr

/-- What is known at a character: the characters, the number of open brackets, the quote of an open
text, whether that has several lines, whether a header is open and whether it is one of a list of
tables, whether a line begins, the part of the entry, and whether its name has a dot. -/
structure Layout where
  chars : Array Char
  brackets : Int := 0
  inText : Bool := false
  quote : Option Char := none
  several : Bool := false
  inHeader : Bool := false
  inListHeader : Bool := false
  lineStart : Bool := true
  part : Part := .value
  dotted : Bool := false

namespace Layout

/-- The character at an offset, which is counted from the end if it is negative. -/
def char? (l : Layout) (i : Int) : Option Char :=
  if 0 ≤ i then l.chars[i.toNat]?
  else if -i ≤ l.chars.size then l.chars[(l.chars.size + i).toNat]?
  else none

/-- How many times a character stands before an offset in a row, at most `limit` times. -/
def runBefore (l : Layout) (c : Char) (i : Int) : Nat → Nat
  | 0 => 0
  | limit + 1 => if l.char? (i - 1) = some c then runBefore l c (i - 1) limit + 1 else 0

/-- How many backslashes stand before an offset. -/
def slashesBefore (l : Layout) (i : Nat) : Nat :=
  ((l.chars.toList.take i).reverse.takeWhile (· = '\\')).length

/-- A character that a name may hold as it is. -/
def isNameChar (c : Char) : Bool := Text.isAlphanumeric c || c == '_' || c == '-'

/-- The name goes on behind a blank or a dot unless another one follows. -/
def nameGoesOn (l : Layout) (i : Nat) : Except Fault Bool :=
  match l.chars[i + 1]? with
  | some c => .ok (!Text.isSpace c && c != '.')
  | none => .error .beyondList

/-- A character of a name: the layout behind it, if it belongs to the name. -/
def inName (l : Layout) (text : List Char) (i : Nat) (c : Char) :
    Except Fault (Option Layout) :=
  if c = '\n' then .error (.atOffset text .lineEndsInKey i)
  else if l.inText then
    if l.quote = some c ∧ l.slashesBefore i % 2 = 0 then
      .ok (some { l with part := .afterName, inText := false, quote := none })
    else .ok (some l)
  else
    match l.part with
    | .value => .ok none
    | .name =>
      if Text.isSpace c then .ok (some { l with part := .afterName })
      else if c = '.' then .ok (some { l with dotted := true })
      else if isNameChar c then .ok (some l)
      else if l.dotted ∧ l.char? ((i : Int) - 1) = some '.' ∧ (c = '"' ∨ c = '\'') then
        .ok (some { l with inText := true, quote := some c })
      else .ok none
    | .afterName =>
      if Text.isSpace c then
        if l.dotted then
          (l.nameGoesOn i).map fun b => some (if b then { l with part := .name } else l)
        else .ok (some l)
      else if c = '.' then
        (l.nameGoesOn i).map fun b =>
          some { l with dotted := true, part := if b then .name else l.part }
      else .ok none

/-- The layout behind a single quote. -/
def singleQuote (l : Layout) (i : Nat) : Layout :=
  let several := if l.runBefore '\'' i 2 = 2 then !l.several else l.several
  let inText := if l.runBefore '\'' i 2 = 2 then several else !l.inText
  { l with several, inText, quote := if inText then some '\'' else none }

/-- How many backslashes stand before a double quote and the quotes before it that belong to it,
counted from the end of the text where its beginning is reached. -/
def slashRun (l : Layout) (i : Int) : Nat := l.runBefore '\\' i (2 * l.chars.size)

/-- The layout behind a double quote. -/
def doubleQuote (l : Layout) (i : Nat) : Layout :=
  let run := l.runBefore '"' i 2
  let slashes := if run = 0 then l.slashRun i else if run = 2 then l.slashRun ((i : Int) - 2) else 0
  let (several, inText) :=
    if slashes % 2 = 1 then (l.several, l.inText)
    else if run = 2 then (!l.several, !l.several)
    else (l.several, !l.inText)
  { l with several, inText, quote := if inText then some '"' else none }

/-- The layout in which a comment is blank, and whether a line end follows it. -/
def blankComment (l : Layout) (i : Nat) : Layout × Bool :=
  let length := ((l.chars.toList.drop i).takeWhile (· ≠ '\n')).length
  ({ l with chars := (List.range length).foldl (fun cs k => cs.set! (i + k) ' ') l.chars },
    i + length < l.chars.size)

/-- The layout behind a bracket. -/
def bracket (l : Layout) (i : Nat) (c : Char) : Layout :=
  let l :=
    if c = '[' ∧ !l.inText ∧ !l.inHeader ∧ !l.inListHeader then
      if l.lineStart then
        if l.chars[i + 1]? = some '[' then { l with inListHeader := true }
        else { l with inHeader := true }
      else { l with brackets := l.brackets + 1 }
    else l
  if c = ']' ∧ !l.inText then
    if l.inHeader then { l with inHeader := false }
    else if l.inListHeader then
      if l.char? ((i : Int) - 1) = some ']' then { l with inListHeader := false } else l
    else { l with brackets := l.brackets - 1 }
  else l

/-- Sets the character at an offset, which is counted from the end if it is negative. -/
def setChar (l : Layout) (i : Int) (c : Char) : Layout :=
  { l with chars := l.chars.set! (if 0 ≤ i then i else l.chars.size + i).toNat c }

/-- The layout behind a line end. -/
def lineEnd (l : Layout) (text : List Char) (i : Nat) : Except Fault Layout :=
  let at_ := fun (k : Int) => l.char? ((i : Int) - k)
  if l.inText ∨ l.several then
    if !l.several then .error (.atOffset text .unbalancedQuotes i)
    else
      match at_ 1, at_ 2 with
      | some a, some b =>
        if (a = '\'' ∨ a = '"') ∧ a = b then
          let l' := l.setChar i a
          if l'.char? ((i : Int) - 3) = some a then .ok (l'.setChar ((i : Int) - 3) ' ')
          else .ok l'
        else .ok l
      | _, _ => .ok l
  else if l.brackets ≠ 0 then .ok (l.setChar i ' ')
  else .ok { l with lineStart := true }

/-- The layout behind a character, and whether the text goes on to be read. -/
def step (l : Layout) (text : List Char) (i : Nat) (c : Char) : Except Fault (Layout × Bool) := do
  let rest (l : Layout) : Except Fault (Layout × Bool) := do
    let l := if c = '\'' ∧ l.quote ≠ some '"' then l.singleQuote i else l
    let l := if c = '"' ∧ l.quote ≠ some '\'' then l.doubleQuote i else l
    let (l, goesOn) :=
      if c = '#' ∧ !l.inText ∧ !l.inHeader ∧ !l.inListHeader then l.blankComment i
      else (l, true)
    if !goesOn then return (l, false)
    let l := l.bracket i c
    if c = '\n' then return (← l.lineEnd text i, true)
    let shown := l.chars[i]?.getD ' '
    if l.lineStart ∧ shown ≠ ' ' ∧ shown ≠ '\t' then
      let l := { l with lineStart := false }
      if l.inHeader ∨ l.inListHeader then return (l, true)
      if shown = '=' then throw (.atOffset text .emptyKey i)
      return ({ l with part := .name }, true)
    return (l, true)
  if l.part = .value then rest l
  else
    match ← l.inName text i c with
    | some l => return (l, true)
    | none =>
      if c = '=' then rest { l with part := .value, dotted := false }
      else throw (.atOffset text (.keyCharacter c) i)

/-- The layout behind the characters from an offset on; `n` of them are left. -/
def run (text : List Char) (i : Nat) : Nat → Layout → Except Fault Layout
  | 0, l => .ok l
  | n + 1, l =>
    match l.step text i (l.chars[i]?.getD ' ') with
    | .error f => .error f
    | .ok (l, true) => run text (i + 1) n l
    | .ok (l, false) => .ok l

/-- The characters of a text with comments and line ends within arrays made blank. -/
def ofText (text : List Char) : Except Fault (List Char) :=
  match run text 0 text.length { chars := text.toArray } with
  | .error f => .error f
  | .ok l =>
    if l.part ≠ .value then .error (.atOffset text .textEndsInKey text.length)
    else if l.inText then .error (.atOffset text .unterminated text.length)
    else .ok l.chars.toList

end Layout

end ImportAudit.Toml
