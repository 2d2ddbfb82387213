/-
# ImportAudit.Grammar.Cursor — the state of reading a script.

A cursor stands in front of a token.  The blank characters and comments before that token have
been passed and form the *gap*; what was finished before them are the nodes of the construct being
read, which began at the offset `lo`.  That the finished nodes and the comments of the gap lie over
the text in order is part of the type, so every way of moving a cursor keeps it, and an outline
built by moving cursors is placed by construction.
-/
import ImportAudit.Outline.Tree
import ImportAudit.Text.Blank

namespace ImportAudit.Grammar

open Outline Outline.Tree

/-! ## Gaps -/

/-- The blank characters and comments between the offset `last` and the next token. -/
structure Gap (text : Array Char) (last : Nat) where
  /-- Where the next token begins. -/
  pos : Nat
  /-- Whether a line ends within the gap. -/
  breaks : Bool
  /-- The comments within the gap, newest first. -/
  comments : List Tree
  placed : Behind text last pos comments

namespace Gap

variable {text : Array Char} {last : Nat}

/-- The gap that holds nothing. -/
def empty (text : Array Char) (last : Nat) : Gap text last where
  pos := last
  breaks := false
  comments := []
  placed := Nat.le_refl last

theorem le_pos (g : Gap text last) : last ≤ g.pos := g.placed.le

/-- Passes the `n` characters at the end of the gap, which are blank. -/
def pass (g : Gap text last) (n : Nat) (breaks : Bool) : Gap text last where
  pos := g.pos + n
  breaks := g.breaks || breaks
  comments := g.comments
  placed := g.placed.mono (Nat.le_add_right _ _)

theorem bare_placed (text : Array Char) (k : Kind) (start n : Nat) (h : k.isBare = true) :
    Placed text (.node k start (start + n) []) := by
  simp only [Placed, PlacedAll]
  exact ⟨tokenShape_of_isBare h, Nat.le_add_right _ _⟩

/-- Passes a comment of `n` characters at the end of the gap. -/
def passComment (g : Gap text last) (k : Kind) (n : Nat) (breaks : Bool)
    (h : k.isBare = true) : Gap text last where
  pos := g.pos + n
  breaks := g.breaks || breaks
  comments := .node k g.pos (g.pos + n) [] :: g.comments
  placed := ⟨Nat.le_refl _, bare_placed text k g.pos n h, g.placed⟩

end Gap

/-- The offset, from `i` on, of the first character that `ends` accepts or of the end of the
text. -/
def lineEnd (text : Array Char) (ends : Char → Bool) : Nat → Nat → Nat
  | 0, i => i
  | fuel + 1, i =>
    match text[i]? with
    | none => i
    | some c => if ends c then i else lineEnd text ends fuel (i + 1)

/-- The offset past the first `*/` from `i` on, and whether a line ends before it; nothing if the
text ends first. -/
def blockEnd (text : Array Char) : Nat → Nat → Bool → Option (Nat × Bool)
  | 0, _, _ => none
  | fuel + 1, i, breaks =>
    match text[i]? with
    | none => none
    | some c =>
      if c == '*' && text[i + 1]? == some '/' then some (i + 2, breaks)
      else blockEnd text fuel (i + 1) (breaks || Text.isLineEnd c)

namespace Gap

variable {text : Array Char} {last : Nat}

/-- Extends the gap over all blank characters and comments that follow it. -/
def extend : Nat → Gap text last → Gap text last
  | 0, g => g
  | fuel + 1, g =>
    match text[g.pos]? with
    | none => g
    | some c =>
      if Text.isScriptBlank c then extend fuel (g.pass 1 (Text.isLineEnd c))
      else if c == '/' && text[g.pos + 1]? == some '/' then
        extend fuel
          (g.passComment .comment (lineEnd text Text.isLineEnd text.size g.pos - g.pos) false rfl)
      else if c == '/' && text[g.pos + 1]? == some '*' then
        match blockEnd text text.size (g.pos + 2) false with
        | none => g
        | some (e, breaks) => extend fuel (g.passComment .comment (e - g.pos) breaks rfl)
      else g

/-- The gap that begins at `last`. -/
def after (text : Array Char) (last : Nat) : Gap text last :=
  extend (text.size + 1 - last) (empty text last)

/-- The text at offset `i` opens or closes an HTML comment. -/
def atHtmlMark (text : Array Char) (i : Nat) : Bool :=
  (text[i]? == some '<' && text[i + 1]? == some '!' && text[i + 2]? == some '-' &&
      text[i + 3]? == some '-') ||
    (text[i]? == some '-' && text[i + 1]? == some '-' && text[i + 2]? == some '>')

/-- A character that ends an HTML comment. -/
def endsHtml (c : Char) : Bool :=
  c == '\n' || c.toNat == 0x2028 || c.toNat == 0x2029

/-- Extends the gap over HTML comments too: where an operand or a statement may begin, `<!--` and
`-->` each comment out the rest of the line. -/
def extendHtml : Nat → Gap text last → Gap text last
  | 0, g => g
  | fuel + 1, g =>
    if atHtmlMark text g.pos then
      extendHtml fuel
        (extend (text.size + 1 - g.pos)
          (g.passComment .htmlComment (lineEnd text endsHtml text.size g.pos - g.pos) false rfl))
    else g

end Gap

/-! ## Cursors -/

/-- Reading has come past the offset `last` within a construct that began at `lo`. -/
structure Cursor (text : Array Char) (lo : Nat) where
  /-- The offset past the last token. -/
  last : Nat
  /-- What stands between the last token and the next. -/
  gap : Gap text last
  /-- The finished nodes of the construct, newest first. -/
  nodes : List Tree
  placed : Behind text lo last nodes

namespace Cursor

variable {text : Array Char} {lo : Nat}

/-- Where the next token begins. -/
def pos (c : Cursor text lo) : Nat := c.gap.pos

/-- A cursor at the offset `lo`, where a construct begins. -/
def start (text : Array Char) (lo : Nat) (breaks : Bool) : Cursor text lo where
  last := lo
  gap := { Gap.empty text lo with breaks := breaks }
  nodes := []
  placed := Nat.le_refl lo

/-- The finished nodes together with the comments of the gap lie before the next token. -/
theorem flushed (c : Cursor text lo) : Behind text lo c.pos (c.gap.comments ++ c.nodes) :=
  c.gap.placed.append c.placed

/-- Moves past a token of `n` characters that leaves no node. -/
def token (c : Cursor text lo) (n : Nat) : Cursor text lo where
  last := c.pos + n
  gap := Gap.after text (c.pos + n)
  nodes := c.gap.comments ++ c.nodes
  placed := c.flushed.mono (Nat.le_add_right _ _)

/-- Moves past a token that becomes the node `t`. -/
def leaf (c : Cursor text lo) (t : Tree) (ht : Placed text t) (hs : t.start = c.pos) :
    Cursor text lo where
  last := t.stop
  gap := Gap.after text t.stop
  nodes := t :: (c.gap.comments ++ c.nodes)
  placed := ⟨Nat.le_refl _, ht, hs ▸ c.flushed⟩

/-- Takes the finished construct `d`, which began at the next token, as one node of kind `k`. -/
def close (c : Cursor text lo) (d : Cursor text c.pos) (k : Kind) (h : k.isToken = false) :
    Cursor text lo where
  last := d.last
  gap := d.gap
  nodes := .node k c.pos d.last d.nodes.reverse :: (c.gap.comments ++ c.nodes)
  placed := by
    refine ⟨Nat.le_refl _, ?_, c.flushed⟩
    simp only [Placed]
    exact ⟨tokenShape_of_not_isToken h, d.placed.placedAll_reverse⟩

/-- Takes the nodes of the finished construct `d`, which began at the next token, as siblings. -/
def splice (c : Cursor text lo) (d : Cursor text c.pos) : Cursor text lo where
  last := d.last
  gap := d.gap
  nodes := d.nodes ++ (c.gap.comments ++ c.nodes)
  placed := d.placed.append c.flushed

/-- Gathers all that was read of the construct into one node of kind `k`. -/
def gather (c : Cursor text lo) (k : Kind) (h : k.isToken = false) : Cursor text lo where
  last := c.last
  gap := c.gap
  nodes := [.node k lo c.last c.nodes.reverse]
  placed := by
    refine ⟨Nat.le_refl _, ?_, Nat.le_refl _⟩
    simp only [Placed]
    exact ⟨tokenShape_of_not_isToken h, c.placed.placedAll_reverse⟩

/-- Goes back to the end of the last token: what follows it is text, in which nothing is blank. -/
def reopen (c : Cursor text lo) : Cursor text lo where
  last := c.last
  gap := Gap.empty text c.last
  nodes := c.nodes
  placed := c.placed

/-- Passes the HTML comments before the next token. -/
def skipHtml (c : Cursor text lo) : Cursor text lo where
  last := c.last
  gap := c.gap.extendHtml (text.size + 1 - c.pos)
  nodes := c.nodes
  placed := c.placed

end Cursor

end ImportAudit.Grammar
