/-
# ImportAudit.Toml.Entry — the entries of a TOML document and their values.

An entry gives a value to a name, or to a name in a table within the table that it stands in.  A
text of several lines ends on a later line, so an entry may be left with a text that is not
complete.
-/
import ImportAudit.Toml.Number

namespace ImportAudit.Toml

/-- The entries of a table. -/
abbrev Table := List (Value × Value)

/-- The kinds of values that an array may not mix. -/
inductive Kind
  | bool
  | text
  | array
  | table
  | time
  | date
  | int
  | float
  deriving DecidableEq, Repr

/-- A text of several lines that is not complete: the name that it will be given to, what was read
of it, and whether a backslash ends the last line. -/
structure Pending where
  name : String
  text : List Char
  slash : Bool
  deriving DecidableEq, Repr

/-! ## Pieces of an array -/

/-- What stands between the brackets of an array. -/
def inside (a : List Char) : List Char := (a.drop 1).dropLast

/-- The first item of an array is a text. -/
def holdsTexts (a : List Char) : Bool :=
  match Text.trim (inside a) with
  | c :: _ => c == '"' || c == '\''
  | [] => false

/-- A piece of an array is a whole text, or nothing. -/
def isBounded (s : List Char) : Bool :=
  match s.head?, s.getLast? with
  | some a, some b =>
    a == b && ((s.drop 1).dropLast.reverse.takeWhile (· = '\\')).length % 2 == 0
  | _, _ => true

/-- A piece of an array begins with three quotes and does not end with them. -/
def isOpenTriple (s : List Char) : Bool :=
  match s with
  | a :: b :: c :: _ =>
    let r := s.reverse
    a == b && b == c && r[1]? != some a && r[2]? != some a
  | _ => false

/-- The pieces of an array of texts, in which commas within texts do not separate. -/
def joinTexts : List (List Char) → Except Fault (List (List Char))
  | [] => .ok []
  | [s] => .ok [s]
  | s :: t :: rest =>
    let shown := Text.trim s
    if isBounded shown ∧ !isOpenTriple shown then do return s :: (← joinTexts (t :: rest))
    else
      let joined := s ++ ',' :: t
      match rest with
      | [] =>
        let shown := Text.trim joined
        if isBounded shown ∧ !isOpenTriple shown then .ok [joined] else .error .beyondList
      | rest => joinTexts (joined :: rest)
  termination_by ss => ss.length

/-- The pieces of an array of arrays, in which commas within arrays do not separate. -/
def splitNested (depth : Int) : List Char → List (List Char)
  | [] => [[]]
  | c :: cs =>
    let depth := if c = '[' then depth + 1 else if c = ']' then depth - 1 else depth
    match splitNested depth cs with
    | [] => [[c]]
    | p :: ps => if c = ',' ∧ depth = 0 then [] :: p :: ps else (c :: p) :: ps

/-- The pieces of an array of tables: each from `start` up to the brace that closes it; `i` is the
offset that is looked at, `depth` the number of open braces, and `inText` tells of a text. -/
def splitTables (a : Array Char) (start i depth : Nat) (inText : Bool) : Nat → List (List Char)
  | 0 => []
  | fuel + 1 =>
    if a.size ≤ i + 1 then []
    else
      let c := a[i]?.getD ' '
      let inText :=
        if c = '"' ∨ c = '\'' then
          let slashes := ((a.toList.take i).reverse.takeWhile (· = '\\')).length
          !(if inText ∧ slashes % 2 = 1 then !inText else inText)
        else inText
      let depth := if !inText ∧ c = '\x7b' then depth + 1 else depth
      if inText ∨ c ≠ '\x7d' then splitTables a start (i + 1) depth inText fuel
      else if 1 < depth then splitTables a start (i + 1) (depth - 1) inText fuel
      else
        let stop := i + 1
        let gap := ((a.toList.take (a.size - 1)).drop (stop + 1)).takeWhile (· ≠ '\x7b')
        let next := stop + 1 + gap.length
        slice a.toList start stop :: splitTables a next (next + 1) depth inText fuel

/-- The pieces of an array. -/
def pieces (a : List Char) : Except Fault (List (List Char)) :=
  let inner := inside a
  if !inner.contains '[' ∨ Text.trim (inner.takeWhile (· ≠ '[')) ≠ [] then
    let parts :=
      if (Text.trim inner).head? = some '\x7b' then
        splitTables a.toArray 1 2 (if inner.head? = some '\x7b' then 1 else 0) false a.length
      else Text.splitOn ',' inner
    if holdsTexts a then joinTexts parts else .ok parts
  else .ok (splitNested 0 inner)

/-! ## Pieces of a table in braces -/

/-- A value of an entry in braces is complete. -/
def isWhole (v : List Char) : Bool :=
  match v.head?, v.getLast? with
  | some a, some b =>
    (a == b && (a == '"' || a == '\'')) || a == '-' || a.isDigit || v == "true".toList ||
      v == "false".toList || (a == '[' && b == ']') || (a == '\x7b' && b == '\x7d')
  | _, _ => false

/-- The entries of a table in braces, in which commas within values do not separate. -/
def joinEntries : List (List Char) → Except Fault (List (List Char))
  | [] => .ok []
  | s :: rest =>
    if !s.contains '=' then refuse .inlineWithoutValue
    else
      let v := Text.trim ((s.dropWhile (· ≠ '=')).drop 1)
      if v = [] then .error .beyondText
      else if isWhole v then do return s :: (← joinEntries rest)
      else
        match rest with
        | [] => refuse .inlineValue
        | t :: more => joinEntries ((s ++ ',' :: t) :: more)
  termination_by ss => ss.length

/-! ## Lines -/

/-- The name and the value of a line. -/
def divide (line : List Char) (times : Nat) : List Char × List Char :=
  let parts := splitAtMost '=' times line
  ((['=']).intercalate parts.dropLast, parts.getLast?.getD [])

/-- A value that stands behind its name without a blank is a text, an array, a table, a truth value,
a number, a date or a time. -/
def isAdmissible (v : List Char) : Bool :=
  match v with
  | [] => true
  | c :: _ =>
    [' ', '\t', '\'', '"', '[', '\x7b'].contains c ||
      Text.trim v = "true".toList || Text.trim v = "false".toList ||
      (floatOf? v).isSome || (momentOf? v).isSome || (timeOf? v).isSome

/-- Divides a line at the first sign behind which a value is admissible; `fuel` bounds the number
of signs. -/
def divideAdmissibly (line : List Char) (times : Nat) :
    Nat → Except Fault (List Char × List Char)
  | 0 => refuse .dateOrNumber
  | fuel + 1 =>
    let d := divide line times
    if isAdmissible d.2 then .ok d
    else if (divide line (times + 1)).2 = d.2 then refuse .dateOrNumber
    else divideAdmissibly line (times + 1) fuel

/-- The offset at which a text of several lines begins that the value does not complete. -/
def openText? (v : List Char) : Option Nat :=
  if v.length < 3 then none
  else
    let (p, offset) :=
      if v.head? = some '[' ∧ v.getLast? ≠ some ']' ∧ holdsTexts v then
        let parts := Text.splitOn ',' (Text.trim (v.drop 1))
        let last := parts.foldl (fun (acc : List Char) part =>
          if acc = [] ∨ part.head? = some '"' ∨ part.head? = some '\'' then part
          else acc ++ ',' :: part) []
        (last, v.length - last.length)
      else (v, 0)
    match p with
    | a :: b :: c :: _ =>
      if (a ≠ '"' ∧ a ≠ '\'') ∨ b ≠ a ∨ c ≠ a then none
      else if 5 < p.length ∧ (p.reverse.take 3).all (· = a) then none
      else some offset
    | _ => none

/-- The names that a name with dots leads through. -/
def levels (name : List Char) : List (List Char) :=
  let parts :=
    if name.contains '"' ∨ name.contains '\'' then
      (quotedPieces name).zipIdx.flatMap fun p =>
        if p.2 % 2 = 1 then [p.1] else (Text.splitOn '.' p.1).map Text.trim
    else Text.splitOn '.' name
  (parts.reverse.dropWhile (· = [])).reverse

/-- Gives a value to a name in a table that the names lead to, unless it has one; tables on the way
are made. -/
def assign (name : String) (v : Option Value) : List String → Table → Except Fault Table
  | [], table =>
    match Value.lookup name table with
    | some _ => refuse .repeatedKey
    | none =>
      match v with
      | some v => .ok (Value.insertEntry (.text name) v table)
      | none => .ok table
  | level :: rest, table =>
    if level = "" then assign name v rest table
    else
      match Value.lookup level table with
      | none => do
        let inner ← assign name v rest []
        pure (Value.insertEntry (.text level) (.mapping inner) table)
      | some (.mapping inner) => do
        let inner ← assign name v rest inner
        pure (Value.insertEntry (.text level) (.mapping inner) table)
      | some other =>
        if rest.all (· = "") then refuse .repeatedKey
        else .error (.misuse (.notContainer other.fullTypeName))

/-- The name of an entry and the names of the tables that lead to it. -/
def nameOf (name : List Char) : Except Fault (String × List String) :=
  if name.contains '.' then
    let ls := levels name
    match ls.getLast? with
    | none => .error .beyondList
    | some last => .ok (String.ofList (Text.trim last), ls.dropLast.map String.ofList)
  else
    match name with
    | [] => .error .beyondText
    | c :: _ =>
      if (c = '"' ∨ c = '\'') ∧ name.getLast? = some c then do
        return (String.ofList (← unescape (inside name)), [])
      else .ok (String.ofList name, [])

/-! ## Values -/

/-- The number of a text. -/
def numberOf (v : List Char) : Except Fault (Value × Kind) := do
  let (negative, body) := signed v
  let v := body.filter (· ≠ '_')
  let name := v.map Char.toLower
  let isFloat := v.contains '.' ∨ (!v.contains 'x' ∧ (v.contains 'e' ∨ v.contains 'E'))
  if isFloat then
    if v.contains '.' ∧ (v.dropWhile (· ≠ '.')).drop 1 = [] then refuse .noFraction
    if !v.head?.any Char.isDigit then refuse .noWhole
  if isFloat ∨ name = "inf".toList ∨ name = "nan".toList then
    match floatOf? v with
    | none => refuse (.number (String.ofList v))
    | some x => pure (.float (if negative then negated x else x), .float)
  else
    let n ← wholeOf v
    pure (.int (if negative then -n else n), .int)

mutual

/-- The value of a text; `fuel` bounds how deep values lie within one another. -/
def valueOf : Nat → List Char → Except Fault (Value × Kind)
  | 0, _ => refuse .noValue
  | fuel + 1, v => do
    let name := v.map Char.toLower
    match v with
    | [] => refuse .noValue
    | c :: _ =>
      if name = "true".toList then
        if v = name then pure (.bool true, .bool) else refuse .booleanCase
      else if name = "false".toList then
        if v = name then pure (.bool false, .bool) else refuse .booleanCase
      else if c = '"' ∨ c = '\'' then pure (.text (String.ofList (← textOf c v)), .text)
      else if c = '[' then pure (.list (← itemsOf fuel none (← pieces (Text.trim v))), .array)
      else if c = '\x7b' then pure (.mapping (← tableOf fuel v []), .table)
      else
        match timeOf? v with
        | some t =>
          match t.flaw? with
          | some flaw => refuse (.clock flaw)
          | none => pure (t.toValue, .time)
        | none =>
          match momentOf? v with
          | some m => pure (m.toValue, .date)
          | none => numberOf v

/-- The values of the pieces of an array, all of one kind. -/
def itemsOf : Nat → Option Kind → List (List Char) → Except Fault (List Value)
  | 0, _, _ => refuse .noValue
  | _ + 1, _, [] => .ok []
  | fuel + 1, kind?, p :: ps => do
    let p := Text.trim p
    if p = [] then itemsOf fuel kind? ps
    else
      let (v, kind) ← valueOf fuel p
      if kind?.any (· ≠ kind) then refuse .mixedArray
      return v :: (← itemsOf fuel (some kind) ps)

/-- The table with the entries of one in braces. -/
def tableOf : Nat → List Char → Table → Except Fault Table
  | 0, _, _ => refuse .noValue
  | fuel + 1, v, table => do
    let parts := Text.splitOn ',' (inside v)
    let parts := if parts.length = 1 ∧ parts.all (fun p => Text.trim p = []) then [] else parts
    entriesOf fuel table (← joinEntries parts)

/-- The table with the entries of lines, up to one that is not complete. -/
def entriesOf : Nat → Table → List (List Char) → Except Fault Table
  | 0, _, _ => refuse .noValue
  | _ + 1, table, [] => .ok table
  | fuel + 1, table, l :: ls => do
    match ← entryOf fuel l table with
    | (table, none) => entriesOf fuel table ls
    | (table, some _) => pure table

/-- The table with the entry of a line, or with a text that is not complete. -/
def entryOf : Nat → List Char → Table → Except Fault (Table × Option Pending)
  | 0, _, _ => refuse .noValue
  | fuel + 1, line, table => do
    let times := timesBefore (fun p => p.contains '=') (fun p => p.count '=') false
      (quotedPieces line)
    let (left, right) ← divideAdmissibly line times (line.length + 1)
    let v := Text.trim right
    let (name, path) ← nameOf (Text.trim left)
    match openText? v with
    | some offset =>
      let slash := ((v.drop offset).reverse.takeWhile (· = '\\')).length % 2 = 1
      let table ← assign name none path table
      pure (table, some ⟨name, if slash then v.dropLast else v ++ ['\n'], slash⟩)
    | none =>
      let (value, _) ← valueOf fuel v
      pure (← assign name (some value) path table, none)

end

end ImportAudit.Toml
