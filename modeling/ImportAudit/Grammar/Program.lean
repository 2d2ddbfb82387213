/-
# ImportAudit.Grammar.Program — reading a whole script.

The readers of the single constructs ask for one another by goal.  Here the goals are tied to their
readers: a reader may ask `fuel` levels deep, and every level that matters reads at least one
character, so the length of the text bounds how deep a script can nest.
-/
import ImportAudit.Grammar.Markup
import ImportAudit.Grammar.Statement

namespace ImportAudit.Grammar

open Outline ImportAudit.Grammar.Parser

/-- The reader of one goal, given the readers of the goals inside it. -/
def step {s : Script} (sub : Goal → Parser s Unit) : Goal → Parser s Unit
  | .statement => statement sub
  | .expression allowIn => expression sub allowIn
  | .assignment allowIn inBranch => assignment sub allowIn inBranch
  | .operand allowIn inBranch => operand sub allowIn inBranch
  | .callee => callee sub
  | .pattern => pattern sub
  | .element => element sub
  | .type => typeExpression sub
  | .typeUnion => typeUnion sub

/-- The reader of one goal, `fuel` levels deep. -/
def reader {s : Script} : Nat → Goal → Parser s Unit
  | 0, _ => fail
  | fuel + 1, goal => step (reader fuel) goal

/-- The first line is a directive to the shell: `#!` and the rest of the line. -/
def directive {s : Script} : Parser s Unit := do
  symbol "#!"
  reopen
  restOfLine
where
  restOfLine : Parser s Unit := fun _ c =>
    some ((), c.token (lineEnd s.text (· == '\n') s.text.size c.pos - c.pos))

/-- Reads a whole script. -/
def script {s : Script} : Parser s Unit := do
  discard (optional directive)
  many (reader (8 * s.text.size + 64) .statement)

/-- The outline of a script. -/
def Script.outline (s : Script) : Tree :=
  match script 0 { Cursor.start s.text 0 false with gap := Gap.after s.text 0 } with
  | none => .node .program 0 0 []
  | some (_, c) => .node .program 0 c.pos (c.gap.comments ++ c.nodes).reverse

end ImportAudit.Grammar
