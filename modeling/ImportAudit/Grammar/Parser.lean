/-
# ImportAudit.Grammar.Parser — readers of a script and the ways to combine them.

A reader moves a cursor or refuses.  It works for any construct that the cursor may be inside of,
and refusing leaves nothing behind: the alternative starts from the cursor as it was.  Readers that
call one another are tied together in `ImportAudit.Grammar.Program`; here are the steps that do not
recurse, and the loops, which stop as soon as a round makes no headway.
-/
import ImportAudit.Grammar.Cursor

namespace ImportAudit.Grammar

open Outline Outline.Tree

/-- A script: its characters, and whether `<tag>` is read as markup rather than as a type
assertion. -/
structure Script where
  text : Array Char
  markup : Bool

/-- A reader of the script `s`: it moves the cursor and gives a result, or refuses. -/
def Parser (s : Script) (α : Type) : Type :=
  (lo : Nat) → Cursor s.text lo → Option (α × Cursor s.text lo)

namespace Parser

variable {s : Script} {α β : Type}

instance : Monad (Parser s) where
  pure a := fun _ c => some (a, c)
  bind p f := fun lo c =>
    match p lo c with
    | none => none
    | some (a, c') => f a lo c'

/-- Refuses. -/
def fail : Parser s α := fun _ _ => none

/-- Reads as `p` does, or from the same place as `q` does if `p` refuses. -/
def orElse (p : Parser s α) (q : Unit → Parser s α) : Parser s α := fun lo c =>
  match p lo c with
  | none => q () lo c
  | some r => some r

instance : OrElse (Parser s α) := ⟨orElse⟩

/-- Goes on only if `b` holds. -/
def guard (b : Bool) : Parser s Unit := if b then pure () else fail

/-- Whether `p` would succeed here; the cursor stays. -/
def follows (p : Parser s α) : Parser s Bool := fun lo c => some ((p lo c).isSome, c)

/-- Reads as `p` does, or reads nothing; tells which. -/
def optional (p : Parser s Unit) : Parser s Bool := fun lo c =>
  match p lo c with
  | none => some (false, c)
  | some (_, c') => some (true, c')

/-- Repeats `p` until it refuses or makes no headway. -/
def manyLoop (p : Parser s Unit) (lo : Nat) : Nat → Cursor s.text lo → Cursor s.text lo
  | 0, c => c
  | fuel + 1, c =>
    match p lo c with
    | none => c
    | some (_, c') => if c.last < c'.last then manyLoop p lo fuel c' else c

/-- Repeats `p` until it refuses or makes no headway. -/
def many (p : Parser s Unit) : Parser s Unit := fun lo c =>
  some ((), manyLoop p lo (s.text.size + 1) c)

/-- Repeats `step` on the result so far until it refuses or makes no headway. -/
def iterateLoop (step : α → Parser s α) (lo : Nat) :
    Nat → α → Cursor s.text lo → α × Cursor s.text lo
  | 0, a, c => (a, c)
  | fuel + 1, a, c =>
    match step a lo c with
    | none => (a, c)
    | some (a', c') => if c.last < c'.last then iterateLoop step lo fuel a' c' else (a, c)

/-- Repeats `step` on the result so far until it refuses or makes no headway. -/
def iterate (step : α → Parser s α) (a : α) : Parser s α := fun lo c =>
  some (iterateLoop step lo (s.text.size + 1) a c)

/-- Repeats `p` and tells whether it was read at least once. -/
def some? (p : Parser s Unit) : Parser s Bool := do
  if ← optional p then
    many p
    pure true
  else
    pure false

/-! ## Constructs -/

/-- Reads `p` as a construct of its own, which becomes a node of kind `k`. -/
def node (k : Kind) (p : Parser s α) (h : k.isToken = false := by exact Eq.refl false) :
    Parser s α :=
  fun _ c =>
    match p c.pos (Cursor.start s.text c.pos c.gap.breaks) with
    | none => none
    | some (a, d) => some (a, c.close d k h)

/-- Reads `p` as a construct of its own: a node of kind `k` if `p` says so, and otherwise siblings
among the nodes before it. -/
def nodeIf (k : Kind) (p : Parser s Bool) (h : k.isToken = false := by exact Eq.refl false) :
    Parser s Unit :=
  fun _ c =>
    match p c.pos (Cursor.start s.text c.pos c.gap.breaks) with
    | none => none
    | some (true, d) => some ((), c.close d k h)
    | some (false, d) => some ((), c.splice d)

/-- Gathers all that was read of the present construct into one node of kind `k`. -/
def gather (k : Kind) (h : k.isToken = false := by exact Eq.refl false) : Parser s Unit :=
  fun _ c => some ((), c.gather k h)

/-! ## Looking ahead -/

/-- The `k`-th character from the next token on. -/
def charAt (k : Nat) : Parser s (Option Char) := fun _ c => some (s.text[c.pos + k]?, c)

/-- The first character of the next token. -/
def here : Parser s (Option Char) := charAt 0

/-- A line ends before the next token. -/
def lineBreak : Parser s Bool := fun _ c => some (c.gap.breaks, c)

/-- The text from offset `i` on begins with `cs`. -/
def beginsWith (text : Array Char) (i : Nat) : List Char → Bool
  | [] => true
  | c :: cs => text[i]? == some c && beginsWith text (i + 1) cs

/-- The next characters are `t`. -/
def looking (t : String) : Parser s Bool := fun _ c =>
  some (beginsWith s.text c.pos t.toList, c)

/-- The next character is `c`. -/
def at? (c : Char) : Parser s Bool := fun _ d => some (s.text[d.pos]? == some c, d)

/-! ## Single tokens -/

/-- Moves past a token of `n` characters. -/
def token (n : Nat) : Parser s Unit := fun _ c => some ((), c.token n)

/-- Moves past a token of `n` characters, which becomes a node of kind `k`. -/
def leaf (k : Kind) (n : Nat) (h : k.isBare = true := by exact Eq.refl true) : Parser s Unit :=
  fun _ c =>
    some ((), c.leaf (.node k c.pos (c.pos + n) []) (Gap.bare_placed s.text k c.pos n h) rfl)

/-- Reads exactly the characters `t`. -/
def symbol (t : String) : Parser s Unit := fun _ c =>
  if beginsWith s.text c.pos t.toList then some ((), c.token t.length) else none

/-- Reads exactly the characters `t`, unless the character after them is one of `stops`. -/
def symbolNot (t : String) (stops : List Char) : Parser s Unit := fun _ c =>
  if beginsWith s.text c.pos t.toList &&
      !(match s.text[c.pos + t.length]? with | some x => stops.contains x | none => false) then
    some ((), c.token t.length)
  else none

/-- Reads what follows the last token as text: blanks and comments in it are characters. -/
def reopen : Parser s Unit := fun _ c => some ((), c.reopen)

/-- Passes the HTML comments that may stand where an operand or a statement begins. -/
def skipHtml : Parser s Unit := fun _ c => some ((), c.skipHtml)

/-- A list of `p` separated by commas, in which places may be empty. -/
def commaList (p : Parser s Unit) : Parser s Unit := do
  discard (optional p)
  many do
    symbol ","
    skipHtml
    discard (optional p)

end Parser

end ImportAudit.Grammar
