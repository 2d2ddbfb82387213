/-
# ImportAudit.Yaml.Scalar — the texts of a YAML document.

A text stands plainly, between quotes, or in lines of its own behind a bar or an angle.  Within
plain and quoted texts a line end is a space, and each further one a line feed.
-/
import ImportAudit.Yaml.Cursor

namespace ImportAudit.Yaml.Scan

/-! ## Quoted texts -/

/-- Takes blanks and line ends within a quoted text; `fuel` bounds the number of lines. -/
def quotedBreaks : Nat → Scan (List Char)
  | 0 => pure []
  | fuel + 1 => do
    if (← get).atSeparator then fail "found unexpected document separator"
    let _ ← takeWhile fun c => c == ' ' || c == '\t'
    match ← lineEnd with
    | [] => pure []
    | ended => return ended ++ (← quotedBreaks fuel)

/-- What a line end and those behind it stand for. -/
def folded (first : List Char) (more : List Char) : List Char :=
  if first ≠ ['\n'] then first ++ more
  else if more = [] then [' ']
  else more

/-- Takes blanks within a quoted text. -/
def quotedBlanks : Scan (List Char) := do
  let blanks ← takeWhile fun c => c == ' ' || c == '\t'
  match ← peek 0 with
  | none => fail "found unexpected end of stream"
  | some c =>
    if isBreak c then
      let first ← lineEnd
      return folded first (← quotedBreaks ((← get).rest.length + 1))
    else pure blanks

/-- The characters that short escapes stand for. -/
def shortEscapes : List (Char × Nat) :=
  [('0', 0), ('a', 7), ('b', 8), ('t', 9), ('\t', 9), ('n', 10), ('v', 11), ('f', 12), ('r', 13),
    ('e', 0x1B), (' ', 0x20), ('"', 0x22), ('\\', 0x5C), ('/', 0x2F), ('N', 0x85), ('_', 0xA0),
    ('L', 0x2028), ('P', 0x2029)]

/-- How many hexadecimal digits follow in a long escape. -/
def longEscapes : List (Char × Nat) := [('x', 2), ('u', 4), ('U', 8)]

/-- The value of a hexadecimal digit. -/
def hexValue? (c : Char) : Option Nat :=
  if c.isDigit then some (c.toNat - 48)
  else if 'a' ≤ c ∧ c ≤ 'f' then some (c.toNat - 87)
  else if 'A' ≤ c ∧ c ≤ 'F' then some (c.toNat - 55)
  else none

/-- The number that hexadecimal digits stand for, if all are. -/
def hexNumber? (ds : List Char) : Option Nat :=
  ds.foldl (fun n? d => do return (← n?) * 16 + (← hexValue? d)) (some 0)

/-- Takes an escape, the backslash of which was read. -/
def escape : Scan (List Char) := do
  match ← peek 0 with
  | none => fail "found unknown escape character"
  | some c =>
    match shortEscapes.lookup c, longEscapes.lookup c with
    | some n, _ => skip 1; pure [Char.ofNat n]
    | none, some digits =>
      skip 1
      let ds := (← get).rest.take digits
      match if ds.length = digits then hexNumber? ds else none with
      | none => fail "expected hexadecimal numbers"
      | some n =>
        if 0x110000 ≤ n then
          throw ⟨.conversion, "chr() arg not in range(0x110000)", 0, 0⟩
        skip digits
        pure [Char.ofNat n]
    | none, none =>
      if isBreak c then
        let _ ← lineEnd
        quotedBreaks ((← get).rest.length + 1)
      else fail "found unknown escape character"

/-- Takes characters that are no blanks within a text between double or single quotes; `fuel` bounds
their number. -/
def quotedSolid (double : Bool) : Nat → Scan (List Char)
  | 0 => pure []
  | fuel + 1 => do
    match (← get).rest with
    | '\'' :: '\'' :: _ =>
      if double then skip 1; return '\'' :: (← quotedSolid double fuel)
      else skip 2; return '\'' :: (← quotedSolid double fuel)
    | c :: _ =>
      if c = ' ' ∨ c = '\t' ∨ isBreak c ∨ c = (if double then '"' else '\'') then pure []
      else if double ∧ c = '\\' then
        skip 1
        let cs ← escape
        return cs ++ (← quotedSolid double fuel)
      else skip 1; return c :: (← quotedSolid double fuel)
    | [] => pure []

/-- Takes the rest of a quoted text with its closing quote. -/
def quotedRest (double : Bool) : Nat → Scan (List Char)
  | 0 => pure []
  | fuel + 1 => do
    let cs ← quotedSolid double ((← get).rest.length + 1)
    if (← peek 0) = some (if double then '"' else '\'') then skip 1; return cs
    let blanks ← quotedBlanks
    return cs ++ blanks ++ (← quotedRest double fuel)

/-- Takes a quoted text. -/
def quotedText (double : Bool) : Scan (List Char) := do
  skip 1
  quotedRest double ((← get).rest.length + 1)

/-! ## Texts in lines of their own -/

/-- Takes the marks behind a bar or an angle: what becomes of the line ends behind the text, and
how far it is indented. -/
def blockMarks : Scan (Option Bool × Option Nat) := do
  let sign? := fun c => if c = '+' then some true else if c = '-' then some false else none
  let digit : Scan (Option Nat) := do
    match ← peek 0 with
    | some c =>
      if c = '0' then fail "expected indentation indicator in the range 1-9, but found 0"
      else if c.isDigit then skip 1; pure (some (c.toNat - 48))
      else pure none
    | none => pure none
  let sign : Scan (Option Bool) := do
    match (← peek 0).bind sign? with
    | some b => skip 1; pure (some b)
    | none => pure none
  let marks ← do
    match ← sign with
    | some b => pure (some b, ← digit)
    | none =>
      match ← digit with
      | some n => pure (← sign, some n)
      | none => pure (none, none)
  if endsWord (← peek 0) then pure marks
  else fail "expected chomping or indentation indicators"

/-- Takes the rest of a line that holds nothing but a comment. -/
def commentLine : Scan Unit := do
  let _ ← spaces
  if (← peek 0) = some '#' then let _ ← takeWhile fun c => !isBreak c
  if endsLine (← peek 0) then let _ ← lineEnd
  else fail "expected a comment or a line break"

/-- Takes spaces up to a column. -/
def indentTo (column : Nat) : Scan Unit := do
  let c ← get
  skip (min (column - c.column) (c.rest.takeWhile (· == ' ')).length)

/-- Takes empty lines, and the spaces up to a column in each and in the line behind them. -/
def blockBreaks (column : Nat) : Nat → Scan (List Char)
  | 0 => pure []
  | fuel + 1 => do
    indentTo column
    match ← lineEnd with
    | [] => pure []
    | ended => return ended ++ (← blockBreaks column fuel)

/-- Takes empty lines and the spaces in them: the line ends, and the greatest indentation. -/
def blockIndentation (most : Nat) : Nat → Scan (List Char × Nat)
  | 0 => pure ([], most)
  | fuel + 1 => do
    let _ ← spaces
    let most := max most (← get).column
    match ← lineEnd with
    | [] => pure ([], most)
    | ended =>
      let (more, most) ← blockIndentation most fuel
      pure (ended ++ more, most)

/-- Takes the lines of a text that is indented to a column, behind the line ends in `breaks`: the
text, the line end of its last line, and those behind it. -/
def blockLines (fold : Bool) (column : Nat) (breaks : List Char) :
    Nat → Scan (List Char × List Char × List Char)
  | 0 => pure ([], [], breaks)
  | fuel + 1 => do
    let isBlank := fun (c : Option Char) => c == some ' ' || c == some '\t'
    let solid := !isBlank (← peek 0)
    let line ← takeWhile fun c => !isBreak c
    let ended ← lineEnd
    let more ← blockBreaks column ((← get).rest.length + 1)
    let c ← get
    if c.column = column ∧ c.rest ≠ [] then
      let joined :=
        if fold ∧ ended = ['\n'] ∧ solid ∧ !isBlank c.rest.head? then
          if more = [] then [' '] else []
        else ended
      let (text, last) ← blockLines fold column more fuel
      pure (breaks ++ line ++ joined ++ text, last)
    else pure (breaks ++ line, ended, more)

/-- Takes a text in lines of its own, which are indented by more than `indent`. -/
def blockText (fold : Bool) (indent : Int) : Scan (List Char) := do
  skip 1
  let (keep, increment) ← blockMarks
  commentLine
  let least := (max 1 (indent + 1)).toNat
  let fuel := (← get).rest.length + 1
  let (breaks, column) ← do
    match increment with
    | none =>
      let (breaks, most) ← blockIndentation 0 fuel
      pure (breaks, max least most)
    | some n => pure (← blockBreaks (least + n - 1) fuel, least + n - 1)
  let c ← get
  let (text, ended, more) ←
    if c.column = column ∧ c.rest ≠ [] then blockLines fold column breaks fuel
    else pure ([], [], breaks)
  match keep with
  | none => pure (text ++ ended)
  | some true => pure (text ++ ended ++ more)
  | some false => pure text

/-! ## Plain texts -/

/-- How many characters of a plain text follow, up to a blank or to what has a meaning. -/
def plainLength (flow : Bool) : List Char → Nat
  | [] => 0
  | c :: rest =>
    if c = ' ' ∨ c = '\t' ∨ isBreak c then 0
    else if c = ':' ∧ (isBlankOrEnd rest.head? ∨
        (flow ∧ (rest.head?.any fun d => ",[]\x7b\x7d".toList.contains d))) then 0
    else if flow ∧ ",?[]\x7b\x7d".toList.contains c then 0
    else plainLength flow rest + 1

/-- Takes line ends and spaces within a plain text, up to a mark that separates documents. -/
def plainBreaks : Nat → Scan (Option (List Char))
  | 0 => pure (some [])
  | fuel + 1 => do
    let _ ← spaces
    match ← lineEnd with
    | [] => pure (some [])
    | ended =>
      if (← get).atSeparator then pure none
      else return (← plainBreaks fuel).map (ended ++ ·)

/-- Takes blanks within a plain text: what they stand for, which is nothing where the text cannot go
on, and whether a line ended. -/
def plainBlanks : Scan (List Char × Bool) := do
  let blanks ← spaces
  match ← lineEnd with
  | [] => pure (blanks, false)
  | first =>
    if (← get).atSeparator then pure ([], true)
    else
      match ← plainBreaks ((← get).rest.length + 1) with
      | none => pure ([], true)
      | some more => pure (folded first more, true)

/-- Takes a plain text that is indented to at least a column, behind blanks that stand for `before`:
the text, and whether a line ended behind it. -/
def plainText (flow : Bool) (indent : Int) (before : List Char) (ended : Bool) :
    Nat → Scan (List Char × Bool)
  | 0 => pure ([], ended)
  | fuel + 1 => do
    let c ← get
    let length := if c.rest.head? = some '#' then 0 else plainLength flow c.rest
    if length = 0 then pure ([], ended)
    else
      let piece := before ++ c.rest.take length
      skip length
      let (blanks, ended) ← plainBlanks
      let c ← get
      if blanks = [] ∨ c.rest.head? = some '#' ∨ (!flow ∧ (c.column : Int) < indent) then
        pure (piece, ended)
      else
        let (more, ended) ← plainText flow indent blanks ended fuel
        pure (piece ++ more, ended)

end ImportAudit.Yaml.Scan
