/-
# ImportAudit.Toml.Reader — the value that a TOML text stands for.

A document is read line by line.  A header opens a table, or a new one in a list of tables; an entry
goes to the table that was opened last.
-/
import ImportAudit.Toml.Entry
import ImportAudit.Toml.Layout

namespace ImportAudit.Toml

/-! ## Tables within tables -/

/-- A step towards a table: to the value of a name, or to the last item of a list. -/
inductive Way
  | named (name : String)
  | last
  deriving DecidableEq, Repr

/-- What a way leads to. -/
def valueAt : List Way → Value → Option Value
  | [], v => some v
  | .named name :: ways, v => (v.member? name).bind (valueAt ways)
  | .last :: ways, .list items => items.getLast?.bind (valueAt ways)
  | .last :: _, _ => none

/-- A value with what a way leads to changed. -/
def changeAt (change : Value → Value) : List Way → Value → Value
  | [], v => change v
  | .named name :: ways, .mapping table =>
    match Value.lookup name table with
    | some v => .mapping (Value.insertEntry (.text name) (changeAt change ways v) table)
    | none => .mapping table
  | .last :: ways, .list items =>
    .list (items.dropLast ++ (items.getLast?.map (changeAt change ways)).toList)
  | _, v => v

/-- A value with a name given another one, if it is a table. -/
def giveName (name : String) (v : Value) : Value → Value
  | .mapping table => .mapping (Value.insertEntry (.text name) v table)
  | other => other

/-! ## Headers -/

/-- Joins the pieces of a name from one that begins with a quote on, up to the one that ends with
it: the name, and the pieces behind it. -/
def joinQuoted : List Char → List (List Char) → Except Fault (List Char × List (List Char))
  | joined, rest =>
    let name := Text.trim joined
    if name.length ≠ 1 ∧ name.head? = name.getLast? then .ok (inside name, rest)
    else
      match rest with
      | p :: ps => joinQuoted (joined ++ '.' :: p) ps
      | [] => refuse (.quotedGroup (String.ofList name))

/-- The names of a header. -/
def headerNames : Nat → List (List Char) → Except Fault (List String)
  | 0, _ => .ok []
  | _, [] => .ok []
  | fuel + 1, p :: ps => do
    let name := Text.trim p
    match name with
    | c :: _ =>
      if c = '"' ∨ c = '\'' then
        let (name, rest) ← joinQuoted name ps
        return String.ofList name :: (← headerNames fuel rest)
    | [] => pure ()
    if name ≠ [] ∧ name.all (fun c => c.isAlphanum || c == '-' || c == '_') then
      return String.ofList name :: (← headerNames fuel ps)
    refuse (.groupName (String.ofList name))

/-- Splits at the first `limit` occurrences of a header's closing bracket, which may be doubled. -/
def splitAtClose (double : Bool) (limit : Nat) (cs : List Char) : List (List Char) :=
  if double then
    let parts := splitAtPair ']' ']' cs
    if parts.length ≤ limit + 1 then parts
    else parts.take limit ++ [([']', ']']).intercalate (parts.drop limit)]
  else splitAtMost ']' limit cs

/-- The names of the header that a line is, and whether it is one of a list of tables. -/
def headerOf (line : List Char) : Except Fault (List String × Bool) := do
  if line.length = 1 then refuse .loneBracket
  let double := (line.drop 1).head? = some '['
  let body := line.drop (if double then 2 else 1)
  let split := fun p => if double then splitAtPair ']' ']' p else Text.splitOn ']' p
  let times := timesBefore (fun p => 1 < (split p).length) (fun p => (split p).length - 1) false
    (quotedPieces body)
  let parts := splitAtClose double times body
  if parts.length < times + 1 ∨ Text.trim (parts.getLast?.getD []) ≠ [] then
    refuse .groupNotAlone
  let close := if double then [']', ']'] else [']']
  let names ← headerNames (body.length + 1) (Text.splitOn '.' (close.intercalate parts.dropLast))
  pure (names, double)

/-- A document as far as it was read: the whole, the way to the open table, the names of tables that
were made on the way to others, and a text that is not complete. -/
structure Reading where
  whole : Value := .mapping []
  way : List Way := []
  implied : List String := []
  pending : Option Pending := none

/-- The document with a table made at a way, in a list if that is asked for. -/
def Reading.make (r : Reading) (way : List Way) (name : String) (inList : Bool) : Reading :=
  let v := if inList then Value.list [.mapping []] else .mapping []
  { r with whole := changeAt (giveName name v) way r.whole }

/-- Goes one name of a header further; `isEnd` tells that it is the last one. -/
def Reading.enter (r : Reading) (name : String) (isEnd inList : Bool) : Except Fault Reading := do
  if name = "" then refuse .emptyGroup
  let here := (valueAt r.way r.whole).getD .null
  let r ← match here with
    | .mapping table =>
      match Value.lookup name table with
      | none =>
        let r := r.make r.way name (isEnd && inList)
        pure (if isEnd then r else { r with implied := r.implied ++ [name] })
      | some v =>
        if !isEnd then pure r
        else if r.implied.contains name then
          if inList then refuse .implicitGroup
          pure { r with implied := r.implied.erase name }
        else if inList then
          match v with
          | .list items =>
            pure { r with
              whole := changeAt (giveName name (.list (items ++ [.mapping []]))) r.way r.whole }
          | v => throw (.misuse (.noMember v.fullTypeName "append"))
        else refuse (.repeatedGroup name here.nested)
    | .list items =>
      match items.getLast? with
      | none => throw .beyondList
      | some last =>
        let r := { r with way := r.way ++ [.last] }
        match last with
        | .mapping table =>
          if (Value.lookup name table).isSome then pure r
          else pure (r.make r.way name (isEnd && inList))
        | other => throw (.misuse (.notTable other.fullTypeName))
    | .text s =>
      if s = "" then throw .beyondText
      else throw (.misuse (.notTable "str"))
    | other => throw (.misuse (.notIndexed other.fullTypeName))
  let way := r.way ++ [.named name]
  match valueAt way r.whole with
  | some (.list (_ :: _)) =>
    pure { r with way := if inList then way ++ [.last] else way }
  | some (.list []) => if inList then throw .beyondList else pure { r with way }
  | _ => pure { r with way }

/-- Goes through the names of a header. -/
def Reading.enterAll (inList : Bool) : List String → Reading → Except Fault Reading
  | [], r => .ok r
  | name :: names, r => do enterAll inList names (← r.enter name names.isEmpty inList)

/-! ## Lines -/

/-- The table that is open. -/
def Reading.table (r : Reading) : Except Fault Table :=
  match valueAt r.way r.whole with
  | some (.mapping table) => .ok table
  | some v => .error (.misuse (.notTable v.fullTypeName))
  | none => .ok []

/-- The document with the open table replaced. -/
def Reading.withTable (r : Reading) (table : Table) : Reading :=
  { r with whole := changeAt (fun _ => .mapping table) r.way r.whole }

/-- The document behind a line that goes on with a text. -/
def Reading.goOn (r : Reading) (p : Pending) (line : List Char) : Except Fault Reading := do
  let text := p.text ++ line
  let quote := text.head?.getD ' '
  let closed ←
    if quote = '[' then
      match line.getLast? with
      | some c => pure (c == ']')
      | none => throw .beyondText
    else pure (2 < line.length && (line.reverse.take 3).all (· = quote))
  if closed then
    let (v, _) ← valueOf (text.length + 8) text
    let table ← r.table
    pure { r.withTable (Value.insertEntry (.text p.name) v table) with pending := none }
  else
    let slash := (text.reverse.takeWhile (· = '\\')).length % 2 = 1
    pure { r with
      pending := some { p with text := if slash then text.dropLast else text ++ ['\n'], slash } }

/-- The document behind a line. -/
def Reading.line (r : Reading) (line : List Char) : Except Fault Reading := do
  let keepsBlanks := match r.pending with
    | some p => !p.slash && p.text.contains '\n'
    | none => false
  let line := if keepsBlanks then line else Text.trim line
  match r.pending with
  | some p => if line = [] ∧ p.slash then pure r else r.goOn p line
  | none =>
    match line with
    | [] => pure r
    | '[' :: _ =>
      let (names, inList) ← headerOf line
      enterAll inList names { r with way := [] }
    | '\x7b' :: _ =>
      if line.getLast? ≠ some '\x7d' then refuse .brokenInline
      pure (r.withTable (← tableOf (4 * line.length + 8) line (← r.table)))
    | line =>
      if !line.contains '=' then pure r
      else
        let (table, pending) ← entryOf (4 * line.length + 8) line (← r.table)
        pure { r.withTable table with pending }

/-- The document behind lines, the first of which begins at an offset of the text. -/
def Reading.lines (text : List Char) : Nat → List (List Char) → Reading → Except Fault Reading
  | _, [], r => .ok r
  | offset, l :: ls, r =>
    match r.line l with
    | .error f => .error (f.placed text offset)
    | .ok r => lines text (offset + l.length + 1) ls r

/-- The table that a text stands for. -/
def read (text : List Char) : Except Fault Value := do
  let chars ← Layout.ofText text
  let r ← Reading.lines text 0 (Text.splitOn '\n' chars) {}
  pure r.whole

end ImportAudit.Toml
