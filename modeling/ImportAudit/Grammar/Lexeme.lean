/-
# ImportAudit.Grammar.Lexeme — names, numbers, regular expressions and literals.

The tokens that need more than a comparison of characters.  A name may spell its letters with
Unicode escapes; a number swallows whatever may continue it; a regular expression ends at the first
slash outside a character class; a string ends at the first quote like its own that no backslash
precedes.  A template is read together with the code in its substitutions.
-/
import ImportAudit.Grammar.Parser

namespace ImportAudit.Grammar

open Outline Outline.Tree

namespace Parser

variable {s : Script}

/-! ## Names -/

/-- The number of characters of a Unicode escape at offset `i`, or zero. -/
def escapeLength (text : Array Char) (i : Nat) : Nat :=
  if text[i]? == some '\\' && text[i + 1]? == some 'u' then
    if text[i + 2]? == some '{' then
      lineEnd text (· == '}') text.size (i + 2) + 1 - i
    else 6
  else 0

/-- The offset past the name whose next character is at `i`. -/
def nameEnd (text : Array Char) : Nat → Nat → Nat
  | 0, i => i
  | fuel + 1, i =>
    match text[i]? with
    | none => i
    | some c =>
      if Text.isNamePart c then nameEnd text fuel (i + 1)
      else if escapeLength text i == 0 then i
      else nameEnd text fuel (i + escapeLength text i)

/-- The number of characters of the name at offset `i`, or zero if there is none. -/
def nameLength (text : Array Char) (i : Nat) : Nat :=
  match text[i]? with
  | none => 0
  | some c =>
    if Text.isNameStart c || escapeLength text i != 0 then nameEnd text (text.size + 1) i - i
    else 0

/-- The name that comes next, or the empty text. -/
def word : Parser s String := fun _ c =>
  some (String.ofList (s.text.extract c.pos (c.pos + nameLength s.text c.pos)).toList, c)

/-- A name comes next. -/
def atName : Parser s Bool := fun _ c => some (nameLength s.text c.pos != 0, c)

/-- Reads any name, keywords included, and leaves no node. -/
def name : Parser s Unit := fun _ c =>
  match nameLength s.text c.pos with
  | 0 => none
  | n + 1 => some ((), c.token (n + 1))

/-- Reads the name `w` and leaves no node. -/
def keyword (w : String) : Parser s Unit := do
  guard ((← word) == w)
  token w.length

/-- Reads one of the names `ws` and leaves no node. -/
def oneOf (ws : List String) : Parser s Unit := do
  guard (ws.contains (← word))
  name

/-- Reads any name as a node. -/
def nameLeaf : Parser s Unit := fun lo c =>
  match nameLength s.text c.pos with
  | 0 => none
  | n + 1 => leaf .identifier (n + 1) rfl lo c

/-- Reads a private name, a name behind `#`. -/
def privateName : Parser s Unit := fun _ c =>
  if s.text[c.pos]? == some '#' then
    match nameLength s.text (c.pos + 1) with
    | 0 => none
    | n + 1 => some ((), c.token (n + 2))
  else none

/-! ## Numbers -/

/-- A character that may continue a number: a digit, a letter or an underscore. -/
def isNumberPart (c : Char) : Bool := c.isAlphanum || c == '_'

/-- The offset past the digits, letters and underscores from `i` on. -/
def digitsEnd (text : Array Char) (i : Nat) : Nat :=
  lineEnd text (fun c => !isNumberPart c) text.size i

/-- The digits before `i` are a decimal mantissa that ends in an exponent mark. -/
def endsInExponent (text : Array Char) (start i : Nat) : Bool :=
  (text[i - 1]? == some 'e' || text[i - 1]? == some 'E') && start < i &&
    !(text[start]? == some '0' && (text[start + 1]? == some 'x' || text[start + 1]? == some 'X'))

/-- The offset past the number that begins at `start` and of which the digits up to `i` are known:
a sign may follow an exponent mark. -/
def exponentEnd (text : Array Char) (start i : Nat) : Nat :=
  if endsInExponent text start i && (text[i]? == some '+' || text[i]? == some '-') then
    digitsEnd text (i + 1)
  else i

/-- The offset past the number at `i`. -/
def numberEnd (text : Array Char) (i : Nat) : Nat :=
  let e := exponentEnd text i (digitsEnd text i)
  let marked := text[i]? == some '0' &&
    (match text[i + 1]? with | some c => c.isAlpha | none => false) &&
    !(text[i + 1]? == some 'e' || text[i + 1]? == some 'E')
  if text[e]? == some '.' && !marked && e == digitsEnd text i && !(text[e - 1]? == some 'n') then
    exponentEnd text i (digitsEnd text (e + 1))
  else e

/-- A number comes next. -/
def atNumber (text : Array Char) (i : Nat) : Bool :=
  match text[i]? with
  | none => false
  | some c =>
    c.isDigit || (c == '.' && (match text[i + 1]? with | some d => d.isDigit | none => false))

/-- Reads a number as a node. -/
def number : Parser s Unit := fun lo c =>
  if atNumber s.text c.pos then
    let e := if s.text[c.pos]? == some '.' then
        exponentEnd s.text c.pos (digitsEnd s.text (c.pos + 1))
      else numberEnd s.text c.pos
    leaf .number (e - c.pos) rfl lo c
  else none

/-! ## Regular expressions -/

/-- The offset past the slash that ends the regular expression whose next character is at `i`. -/
def regexEnd (text : Array Char) : Nat → Nat → Bool → Option Nat
  | 0, _, _ => none
  | fuel + 1, i, inClass =>
    match text[i]? with
    | none => none
    | some c =>
      if Text.isLineEnd c then none
      else if c == '\\' then regexEnd text fuel (i + 2) inClass
      else if c == '[' then regexEnd text fuel (i + 1) true
      else if c == ']' then regexEnd text fuel (i + 1) false
      else if c == '/' && !inClass then some (i + 1)
      else regexEnd text fuel (i + 1) inClass

/-- Reads a regular expression with its flags as a node. -/
def regex : Parser s Unit := fun lo c =>
  if s.text[c.pos]? == some '/' then
    match regexEnd s.text s.text.size (c.pos + 1) false with
    | none => none
    | some e => leaf .regex (nameEnd s.text s.text.size e - c.pos) rfl lo c
  else none

/-! ## Strings -/

/-- The offset of the first quote `q` from `i` on that no backslash precedes; with `escapes` off a
backslash is an ordinary character and the string may run over several lines. -/
def closingQuote (text : Array Char) (q : Char) (escapes : Bool) :
    Nat → (i : Nat) → Option { j : Nat // i ≤ j ∧ text[j]? = some q }
  | 0, _ => none
  | fuel + 1, i =>
    match hc : text[i]? with
    | none => none
    | some c =>
      if hq : c = q then some ⟨i, Nat.le_refl i, hq ▸ hc⟩
      else if escapes && (c == '\n' || c == '\r') then none
      else
        let n := if c == '\\' && escapes then
            if text[i + 1]? == some '\r' && text[i + 2]? == some '\n' then 3 else 2
          else 1
        match closingQuote text q escapes fuel (i + n) with
        | none => none
        | some ⟨j, hj⟩ => some ⟨j, Nat.le_trans (Nat.le_add_right i n) hj.1, hj.2⟩

/-- Reads a string between quotes `q` as a node. -/
def quoted (q : Char) (hq : q = '"' ∨ q = '\'') (escapes : Bool) : Parser s Unit := fun _ c =>
  if h : s.text[c.pos]? = some q then
    match closingQuote s.text q escapes s.text.size (c.pos + 1) with
    | none => none
    | some ⟨j, hj⟩ =>
      some ((), c.leaf (.node .string c.pos (j + 1) [])
        (by
          have hspan : Quoted s.text q c.pos (j + 1) := ⟨by omega, h, hj.2⟩
          have hle : c.pos ≤ j + 1 := by omega
          simp only [Placed, TokenShape, PlacedAll, true_and]
          rcases hq with rfl | rfl
          · exact ⟨.inl hspan, hle⟩
          · exact ⟨.inr hspan, hle⟩)
        rfl)
  else none

/-- Reads a string as a node. -/
def string : Parser s Unit :=
  quoted '"' (.inl rfl) true <|> quoted '\'' (.inr rfl) true

/-- Reads the string value of a markup attribute as a node. -/
def markupString : Parser s Unit :=
  quoted '"' (.inl rfl) false <|> quoted '\'' (.inr rfl) false

/-! ## Templates -/

/-- The substitutions of a template that lie before the offset `hi`, newest first; if there are
none, the template is plain up to there. -/
structure Substitutions (text : Array Char) (hole : Kind) (lo hi : Nat) where
  trees : List Tree
  placed : Behind text lo hi trees
  kinds : ∀ t ∈ trees, t.kind = hole
  plain : trees = [] → Plain text lo hi

/-- A template up to its closing backtick, which is at the offset `close`. -/
structure TemplateBody (text : Array Char) (hole : Kind) (lo : Nat) where
  close : Nat
  substitutions : Substitutions text hole lo close
  closed : text[close]? = some '`'

/-- Reads a template from the offset `i` inside it up to its closing backtick; `inner` reads the
code of a substitution, between its braces. -/
def templateBody (inner : Parser s Unit) (hole : Kind) (h : hole.isToken = false) (lo : Nat) :
    Nat → (i : Nat) → Substitutions s.text hole lo i → Option (TemplateBody s.text hole lo)
  | 0, _, _ => none
  | fuel + 1, i, subs =>
    match hc : s.text[i]? with
    | none => none
    | some c =>
      if hq : c = '`' then some ⟨i, subs, hq ▸ hc⟩
      else if hs : c == '$' && s.text[i + 1]? == some '{' then
        let d : Cursor s.text i := (Cursor.start s.text i false).token 2
        match inner i d with
        | none => none
        | some (_, d) =>
          if s.text[d.pos]? == some '}' then
            let e := d.token 1
            templateBody inner hole h lo fuel e.last
              { trees := .node hole i e.last e.nodes.reverse :: subs.trees
                placed := ⟨Nat.le_refl _, by
                  simp only [Placed]
                  exact ⟨tokenShape_of_not_isToken h, e.placed.placedAll_reverse⟩,
                  subs.placed⟩
                kinds := by
                  intro t ht
                  rcases List.mem_cons.1 ht with rfl | ht
                  · rfl
                  · exact subs.kinds t ht
                plain := by
                  intro hnil
                  cases hnil }
          else none
      else
        let n := if c == '\\' then 2 else 1
        templateBody inner hole h lo fuel (i + n)
          { trees := subs.trees
            placed := subs.placed.mono (Nat.le_add_right i n)
            kinds := subs.kinds
            plain := by
              intro hnil
              by_cases hesc : c = '\\'
              · subst hesc
                exact .escape (subs.plain hnil) hc
              · have hn : n = 1 := if_neg (by simpa using hesc)
                rw [hn]
                exact .char (subs.plain hnil) hc hq hesc (by simpa using hs) }

/-- The template that the cursor stands at, up to its closing backtick. -/
def templateFrom (inner : Parser s Unit) (hole : Kind) (h : hole.isToken = false) (start : Nat) :
    Option (TemplateBody s.text hole (start + 1)) :=
  templateBody inner hole h (start + 1) s.text.size (start + 1)
    { trees := []
      placed := Nat.le_refl _
      kinds := fun _ h => nomatch h
      plain := fun _ => .empty }

theorem templateFrom_placed {hole : Kind} {start : Nat} (b : TemplateBody s.text hole (start + 1)) :
    PlacedAll s.text start (b.close + 1) b.substitutions.trees.reverse := by
  have hb : Behind s.text start (b.close + 1) b.substitutions.trees := by
    have h₀ : Behind s.text start (start + 1) [] := Nat.le_succ start
    have h₁ := (b.substitutions.placed.mono (Nat.le_succ b.close)).append h₀
    rwa [List.append_nil] at h₁
  exact hb.placedAll_reverse

/-- Reads a template literal as a node whose children are its substitutions. -/
def templateString (inner : Parser s Unit) : Parser s Unit := fun _ c =>
  if h : s.text[c.pos]? = some '`' then
    match templateFrom inner .templateSubstitution rfl c.pos with
    | none => none
    | some b =>
      some ((), c.leaf (.node .templateString c.pos (b.close + 1) b.substitutions.trees.reverse)
        (by
          have hle := b.substitutions.placed.le
          simp only [Placed, TokenShape]
          refine ⟨⟨?_, ⟨?_, h, b.closed⟩, ?_⟩, templateFrom_placed b⟩
          · intro t ht
            exact b.substitutions.kinds t (List.mem_reverse.1 ht)
          · omega
          · intro hnil
            exact b.substitutions.plain (List.reverse_eq_nil_iff.1 hnil))
        rfl)
  else none

/-- Reads a template literal type as a node whose children are the types in it. -/
def templateType (inner : Parser s Unit) : Parser s Unit := fun _ c =>
  if s.text[c.pos]? == some '`' then
    match templateFrom inner .templateType rfl c.pos with
    | none => none
    | some b =>
      some ((), c.leaf (.node .templateLiteralType c.pos (b.close + 1)
          b.substitutions.trees.reverse)
        (by
          simp only [Placed]
          exact ⟨tokenShape_of_not_isToken rfl, templateFrom_placed b⟩)
        rfl)
  else none

end Parser

end ImportAudit.Grammar
