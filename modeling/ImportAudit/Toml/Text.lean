/-
# ImportAudit.Toml.Text — texts between quotes.
-/
import ImportAudit.Text.Trim
import ImportAudit.Toml.Fault

namespace ImportAudit.Toml

/-- A complaint. -/
def refuse {α : Type} (c : Complaint) : Except Fault α := .error (.complaint c)

/-! ## Pieces -/

/-- Splits at the first `limit` occurrences of `sep`. -/
def splitAtMost (sep : Char) : Nat → List Char → List (List Char)
  | _, [] => [[]]
  | 0, cs => [cs]
  | limit + 1, c :: cs =>
    if c = sep then [] :: splitAtMost sep limit cs
    else
      match splitAtMost sep (limit + 1) cs with
      | [] => [[c]]
      | p :: ps => (c :: p) :: ps

/-- Splits at every occurrence of a text of two characters. -/
def splitAtPair (a b : Char) : List Char → List (List Char)
  | [] => [[]]
  | [c] => [[c]]
  | c :: d :: rest =>
    if c = a ∧ d = b then [] :: splitAtPair a b rest
    else
      match splitAtPair a b (d :: rest) with
      | [] => [[c]]
      | p :: ps => (c :: p) :: ps

/-- The pieces of a beginning with a single quote in it: a piece that is open at a double quote goes
on behind it.  Also gives what is left of the pieces between double quotes. -/
def joinSingles : Nat → List (List Char) → List (List Char) →
    List (List Char) × List (List Char)
  | 0, singles, doubles => (singles, doubles)
  | fuel + 1, singles, doubles =>
    match doubles with
    | [] => (singles, [])
    | d :: ds =>
      if singles.length % 2 = 0 then
        let last := singles.getLast?.getD [] ++ '"' :: d
        joinSingles fuel (singles.dropLast ++ Text.splitOn '\'' last) ds
      else (singles, doubles)

/-- The pieces of a line between quotes; every other one is within quotes. -/
def quotedPieces (line : List Char) : List (List Char) :=
  let doubles := Text.splitOn '"' line
  let (begun, doubles) :=
    match doubles with
    | d :: ds =>
      if ds ≠ [] ∧ d.contains '\'' then joinSingles line.length (Text.splitOn '\'' d) ds
      else ([], doubles)
    | [] => ([], [])
  match doubles with
  | [] => begun
  | d :: ds => begun ++ Text.splitOn '\'' d ++ ds

/-- One more than how often `count` finds something in the pieces before the first one outside of
quotes that satisfies `p`. -/
def timesBefore (p : List Char → Bool) (count : List Char → Nat) :
    Bool → List (List Char) → Nat
  | _, [] => 1
  | quoted, piece :: pieces =>
    if !quoted && p piece then 1 else count piece + timesBefore p count (!quoted) pieces

/-! ## Escapes -/

/-- The characters that short escapes stand for. -/
def escapes : List (Char × Char) :=
  [('0', Char.ofNat 0), ('b', Char.ofNat 8), ('f', Char.ofNat 12), ('n', '\n'), ('r', '\r'),
    ('t', '\t'), ('"', '"')]

/-- A text with its short escapes resolved. -/
def unescape : List Char → Except Fault (List Char)
  | [] => .ok []
  | '\\' :: c :: cs =>
    match escapes.lookup c with
    | some d => do return d :: (← unescape cs)
    | none =>
      if c = '\\' then do return '\\' :: (← unescape cs)
      else if c = 'u' ∨ c = 'U' then do return '\\' :: c :: (← unescape cs)
      else refuse .reservedEscape
  | c :: cs => do return c :: (← unescape cs)

/-- A lower-case hexadecimal digit. -/
def isHexDigit (c : Char) : Bool := c.isDigit || ('a' ≤ c && c ≤ 'f')

/-- A text ends in an odd number of backslashes. -/
def endsEscaped (cs : List Char) : Bool := (cs.reverse.takeWhile (· = '\\')).length % 2 = 1

/-- The characters that pieces behind long escapes stand for; `skip` leaves the next one as it
is. -/
def longEscapes (mark : Char) (digits : Nat) : Bool → List (List Char) →
    Except Fault (List Char)
  | _, [] => .ok []
  | true, p :: ps => do return '\\' :: mark :: p ++ (← longEscapes mark digits (endsEscaped p) ps)
  | false, p :: ps => do
    let ds := (p.take digits).map Char.toLower
    let shown := String.ofList ds
    if !ds.all isHexDigit then refuse (.escape shown)
    match ds with
    | [] => throw .beyondText
    | a :: more =>
      if a = 'd' then
        match more with
        | [] => throw .beyondText
        | b :: _ => if !('0' ≤ b ∧ b ≤ '7') then refuse (.surrogateEscape shown)
      let n := ds.foldl (fun n d => n * 16 + (if d.isDigit then d.toNat - 48 else d.toNat - 87)) 0
      if 0x110000 ≤ n then refuse .beyondCharacters
      return Char.ofNat n :: p.drop ds.length ++ (← longEscapes mark digits false ps)

/-- A text with the long escapes of a mark resolved. -/
def resolveLong (mark : Char) (digits : Nat) (cs : List Char) : Except Fault (List Char) :=
  match splitAtPair '\\' mark cs with
  | [] => .ok cs
  | first :: rest => do return first ++ (← longEscapes mark digits (endsEscaped first) rest)

/-- The escapes in a text are among those that there are; `slash` tells whether the piece before was
a lone backslash. -/
def escapesKnown : Bool → List (List Char) → Bool
  | _, [] => true
  | slash, [] :: ps => escapesKnown (!slash) ps
  | slash, (c :: _) :: ps =>
    (slash || (escapes.lookup c).isSome || c == 'u' || c == 'U') && escapesKnown false ps

/-! ## Texts -/

/-- A piece of a text is not ended by a backslash that escapes the quote behind it. -/
def endsFreely (piece : List Char) : Bool :=
  let run := (piece.reverse.takeWhile (· = '\\')).length
  run % 2 = 0

/-- A text ends where it is closed; `triple` tells that it is between three quotes, `count` how many
were seen in a row, and `closed` that it is closed. -/
def endsClosed (triple : Bool) : Nat → Bool → List (List Char) → Bool
  | _, _, [] => true
  | count, closed, [] :: ps =>
    if triple then endsClosed triple (count + 1) closed ps else endsClosed triple count true ps
  | count, closed, p :: ps =>
    if endsFreely p then
      if closed then false
      else if !triple ∨ 1 < count then endsClosed triple count true ps
      else endsClosed triple 0 closed ps
    else endsClosed triple count closed ps

/-- The text that a value in the given quotes stands for. -/
def textOf (quote : Char) (v : List Char) : Except Fault (List Char) := do
  let pieces := Text.splitOn quote (v.drop 1)
  let closed := match pieces with
    | [] :: [] :: more => endsClosed true 0 false more
    | pieces => endsClosed false 0 false pieces
  if !closed then refuse .afterString
  let v ←
    if quote = '"' then
      if !escapesKnown false ((Text.splitOn '\\' v).drop 1) then refuse .reservedEscape
      else unescape (← resolveLong 'U' 8 (← resolveLong 'u' 4 v))
    else pure v
  let v := match v with
    | _ :: b :: rest =>
      if b = quote ∧ (rest = [] ∨ rest.head? = some b) then (v.drop 2).dropLast.dropLast else v
    | _ => v
  pure (v.drop 1).dropLast

end ImportAudit.Toml
