/-
# ImportAudit.Console.Panel — a text in a frame.
-/
import ImportAudit.Console.Markup
import ImportAudit.Console.Wrap

namespace ImportAudit.Console

/-- A run of the line that frames are drawn with. -/
def rule (n : Nat) : List Char := List.replicate n '─'

/-- A title in a frame of the given inner width: centred in the line, the left side of which gets
the smaller half of what is left. -/
def framedTitle (inner : Nat) (title : List Char) : List Char :=
  if inner ≤ 2 then rule inner
  else
    let title := ' ' :: title ++ [' ']
    let shown := if cells title ≤ inner - 2 then title else fit (inner - 2) title
    let space := inner - 2 - cells shown
    '─' :: rule (space / 2) ++ shown ++ rule (space - space / 2) ++ ['─']

/-- The lines of a text in a frame that fills the width, under a title. -/
def panelLines (width : Nat) (title text : List Char) : List (List Char) :=
  let inner := width - 2
  let lines := (wrap (inner - 2) .fold text).map fun l =>
    '│' :: ' ' :: fit (inner - 2) l ++ [' ', '│']
  ('╭' :: framedTitle inner title ++ ['╮']) :: lines ++ ['╰' :: rule inner ++ ['╯']]

/-- A text in a frame that fills the width, under a title. -/
def panel (width : Nat) (title text : String) : Except Fault String :=
  match render title with
  | .error e => .error e
  | .ok title =>
    match render text with
    | .error e => .error e
    | .ok text => .ok (joinLines (panelLines width title text))

/-- A text broken into lines of the width. -/
def paragraph (width : Nat) (text : String) : Except Fault String :=
  match render text with
  | .error e => .error e
  | .ok text => .ok (joinLines (wrap width .fold text))

/-- What is printed of blocks one after the other, up to the first that cannot be printed, and why
that one cannot be. -/
def printAll : List (Except Fault String) → String × Option Fault
  | [] => ("", none)
  | .error e :: _ => ("", some e)
  | .ok s :: blocks =>
    let r := printAll blocks
    (s ++ r.1, r.2)

end ImportAudit.Console
