/-
# ImportAudit.Yaml.Tokens — the sequence of tokens of a YAML text.

What comes before a colon is a key, which is known only when the colon is read.  So each token that
may begin a key is remembered, one for every depth of brackets, for as long as the line lasts and
the text between is not too long.  If a fault is found while the first token of what may be a key is
remembered, nothing from that token on is a token.
-/
import ImportAudit.Yaml.Token

namespace ImportAudit.Yaml

/-- A token that may begin a key: its number, where it stands, and whether it must begin one. -/
structure KeyMark where
  number : Nat
  required : Bool
  index : Nat
  line : Nat
  column : Nat

/-- How far a text was read: the cursor, the tokens, the number of open brackets, the columns of
blocks that are open, whether a key may begin, and the tokens that may have begun one. -/
structure Lexing where
  cursor : Cursor
  tokens : Array Token := #[]
  depth : Nat := 0
  indent : Int := -1
  outer : List Int := []
  allowKey : Bool := true
  marks : List (Nat × KeyMark) := []
  finished : Bool := false

namespace Lexing

/-- A step that reads on, or a fault and how far the text was read before. -/
abbrev Step := StateT Lexing (Except Fault)

/-- The fault that something is missing or out of place at the cursor. -/
def fault (l : Lexing) (complaint : String) : Fault :=
  ⟨.tokens, complaint, l.cursor.line, l.cursor.column⟩

/-- Reads on from the cursor. -/
def scan {α : Type} (s : Scan α) : Step α := do
  let l ← get
  match s l.cursor with
  | .ok (a, cursor) => set { l with cursor }; pure a
  | .error f => throw f

/-- Adds a token. -/
def push (t : Token) : Step Unit := modify fun l => { l with tokens := l.tokens.push t }

/-- A fault at the cursor. -/
def fail (complaint : String) : Step Unit := do throw ((← get).fault complaint)

/-! ## Keys -/

/-- Forgets the token that may have begun a key at the present depth. -/
def dropMark : Step Unit := do
  let l ← get
  match l.marks.lookup l.depth with
  | some m =>
    if m.required then fail "could not find expected ':'"
    set { l with marks := l.marks.filter fun m => m.1 ≠ l.depth }
  | none => pure ()

/-- Remembers that the next token may begin a key. -/
def putMark : Step Unit := do
  let l ← get
  if l.allowKey then
    let m : KeyMark := ⟨l.tokens.size, l.depth = 0 && l.indent == l.cursor.column,
      l.cursor.index, l.cursor.line, l.cursor.column⟩
    dropMark
    modify fun l => { l with marks := (l.depth, m) :: l.marks }

/-- How long a key may be. -/
def maxKey : Nat := 1024

/-- A token cannot begin a key any more. -/
def isStale (l : Lexing) (m : KeyMark) : Bool :=
  m.line ≠ l.cursor.line || maxKey < l.cursor.index - m.index

/-- The state in which the tokens that cannot begin a key any more are forgotten. -/
def fresh (l : Lexing) : Lexing := { l with marks := l.marks.filter fun m => !l.isStale m.2 }

/-- Forgets the tokens that cannot begin a key any more, none of which may have to begin one. -/
def dropStale : Step Unit := do
  let l ← get
  if l.marks.any fun m => l.isStale m.2 && m.2.required then fail "could not find expected ':'"
  set l.fresh

/-- Sets whether a key may begin. -/
def allow (b : Bool) : Step Unit := modify fun l => { l with allowKey := b }

/-! ## Blocks -/

/-- Ends the blocks that are indented by more than a column. -/
def unwind (column : Int) : List Int → Step Unit
  | [] => pure ()
  | outer :: rest => do
    let l ← get
    if column < l.indent then
      set { l with indent := outer, outer := rest, tokens := l.tokens.push .blockEnd }
      unwind column rest

/-- Ends blocks unless a bracket is open. -/
def unwindTo (column : Int) : Step Unit := do
  let l ← get
  if l.depth = 0 then unwind column l.outer

/-- Begins a block at a column if that is indented further; a token tells of it, before the token of
a number. -/
def indentTo (column : Int) (t : Token) (number : Nat) : Step Unit := do
  let l ← get
  if l.indent < column then
    set { l with
      indent := column
      outer := l.indent :: l.outer
      tokens := (l.tokens.toList.take number ++ t :: l.tokens.toList.drop number).toArray }

/-! ## Tokens -/

/-- Skips blanks, comments and line ends; `fuel` bounds the number of lines. -/
def skipBlanks : Nat → Step Unit
  | 0 => pure ()
  | fuel + 1 => do
    let _ ← scan Scan.spaces
    if (← get).cursor.rest.head? = some '#' then
      let _ ← scan (Scan.takeWhile fun c => !isBreak c)
    match ← scan Scan.lineEnd with
    | [] => pure ()
    | _ =>
      if (← get).depth = 0 then allow true
      skipBlanks fuel

/-- Ends the text. -/
def endStream : Step Unit := do
  unwindTo (-1)
  dropMark
  modify fun l => { l with allowKey := false, marks := [], finished := true }
  push .streamEnd

/-- Takes a directive or a mark that separates documents. -/
def separate (t : Step Token) : Step Unit := do
  unwindTo (-1)
  dropMark
  allow false
  push (← t)

/-- Takes an opening bracket. -/
def openBracket (t : Token) : Step Unit := do
  putMark
  modify fun l => { l with depth := l.depth + 1, allowKey := true }
  scan (Scan.skip 1)
  push t

/-- Takes a closing bracket. -/
def closeBracket (t : Token) : Step Unit := do
  dropMark
  modify fun l => { l with depth := l.depth - 1, allowKey := false }
  scan (Scan.skip 1)
  push t

/-- Takes a mark of an entry or of a key, which begins a block where none is open. -/
def beginEntry (t start : Token) (allowed : Bool) (complaint : String) : Step Unit := do
  let l ← get
  if l.depth = 0 then
    if !l.allowKey then fail complaint
    indentTo l.cursor.column start l.tokens.size
  allow allowed
  dropMark
  scan (Scan.skip 1)
  push t

/-- Takes the colon behind a key, or one that has no key. -/
def takeValue : Step Unit := do
  let l ← get
  match l.marks.lookup l.depth with
  | some m =>
    set { l with
      marks := l.marks.filter fun m => m.1 ≠ l.depth
      tokens := (l.tokens.toList.take m.number ++
        Token.key :: l.tokens.toList.drop m.number).toArray }
    if l.depth = 0 then indentTo m.column .mappingStart m.number
    allow false
  | none =>
    if l.depth = 0 then
      if !l.allowKey then fail "mapping values are not allowed here"
      indentTo l.cursor.column .mappingStart l.tokens.size
    allow (l.depth = 0)
    dropMark
  scan (Scan.skip 1)
  push .value

/-- Takes what may be a key. -/
def keyed (t : Step Token) : Step Unit := do
  putMark
  allow false
  push (← t)

/-- Takes a plain text. -/
def plain : Step Token := do
  let l ← get
  let (text, ended) ←
    scan (Scan.plainText (l.depth ≠ 0) (l.indent + 1) [] false (l.cursor.rest.length + 1))
  if ended then allow true
  pure (.scalar (String.ofList text) true)

/-- Takes a text in lines of its own. -/
def block (fold : Bool) : Step Unit := do
  allow true
  dropMark
  let text ← scan (Scan.blockText fold (← get).indent)
  push (.scalar (String.ofList text) false)

/-- A plain text may begin with a character before another one. -/
def beginsPlain (flow : Bool) (c : Char) (next : Option Char) : Bool :=
  !(c == ' ' || c == '\t' || isBreak c || "-?:,[]\x7b\x7d#&*!|>'\"%@`".toList.contains c) ||
    (!isBlankOrEnd next && (c == '-' || (!flow && (c == '?' || c == ':'))))

/-- Takes what begins with a character. -/
def takeToken (c : Char) : Step Unit := do
  let l ← get
  let atLineStart := l.cursor.column = 0
  let flow := l.depth ≠ 0
  let next := l.cursor.rest[1]?
  if c = '%' ∧ atLineStart then separate do return .directive (← scan Scan.directive)
  else if atLineStart ∧ l.cursor.atMark '-' then
    separate do scan (Scan.skip 3); pure .documentStart
  else if atLineStart ∧ l.cursor.atMark '.' then
    separate do scan (Scan.skip 3); pure .documentEnd
  else if c = '[' then openBracket .flowSequenceStart
  else if c = '\x7b' then openBracket .flowMappingStart
  else if c = ']' then closeBracket .flowSequenceEnd
  else if c = '\x7d' then closeBracket .flowMappingEnd
  else if c = ',' then
    allow true
    dropMark
    scan (Scan.skip 1)
    push .flowEntry
  else if c = '-' ∧ isBlankOrEnd next then
    beginEntry .entry .sequenceStart true "sequence entries are not allowed here"
  else if c = '?' ∧ (flow ∨ isBlankOrEnd next) then
    beginEntry .key .mappingStart (!flow) "mapping keys are not allowed here"
  else if c = ':' ∧ (flow ∨ isBlankOrEnd next) then takeValue
  else if c = '*' then keyed do return .alias (← scan Scan.anchorName)
  else if c = '&' then keyed do return .anchor (← scan Scan.anchorName)
  else if c = '!' then keyed do return .tag (← scan Scan.tagName)
  else if c = '|' ∧ !flow then block false
  else if c = '>' ∧ !flow then block true
  else if c = '\'' then
    keyed do return .scalar (String.ofList (← scan (Scan.quotedText false))) false
  else if c = '"' then
    keyed do return .scalar (String.ofList (← scan (Scan.quotedText true))) false
  else if beginsPlain flow c next then keyed plain
  else fail "found character that cannot start any token"

/-- Takes the next token, with those that come with it. -/
def takeNext : Step Unit := do
  skipBlanks ((← get).cursor.rest.length + 1)
  dropStale
  unwindTo (← get).cursor.column
  match (← get).cursor.rest with
  | [] => endStream
  | c :: _ => takeToken c

/-- The tokens before a fault: none from the first on that may have begun a key. -/
def settled (l : Lexing) : List Token :=
  l.tokens.toList.take (l.marks.foldl (fun n m => min n m.2.number) l.tokens.size)

/-- Takes all tokens: those before the first fault, and the fault. -/
def run : Nat → Lexing → List Token × Option Fault
  | 0, l => (l.settled, none)
  | fuel + 1, l =>
    if l.finished then (l.tokens.toList, none)
    else
      match takeNext l with
      | .ok ((), l) => run fuel l
      | .error f => (l.fresh.settled, some f)

/-- The tokens of a text, up to the first fault, and the fault. -/
def tokensOf (text : List Char) : List Token × Option Fault :=
  let text := if text.head? = some (Char.ofNat 0xFEFF) then text.drop 1 else text
  run (2 * text.length + 2) { cursor := { rest := text } }

end Lexing

end ImportAudit.Yaml
