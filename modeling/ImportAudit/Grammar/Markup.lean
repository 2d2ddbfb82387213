/-
# ImportAudit.Grammar.Markup — elements written inside a script.

Between the tags of an element everything up to the next brace or angle bracket is text: neither
quotes nor comment marks mean anything there.  Braces lead back to code.
-/
import ImportAudit.Grammar.Signature

namespace ImportAudit.Grammar.Parser

open Outline

variable {s : Script} (sub : Goal → Parser s Unit)

/-- A character of the name of an element or an attribute. -/
def isTagPart (c : Char) : Bool := Text.isNamePart c || c == '-'

/-- Reads one part of the name of an element or an attribute, in which hyphens may occur. -/
def tagWord : Parser s Unit := fun _ c =>
  match s.text[c.pos]? with
  | none => none
  | some d =>
    if Text.isNameStart d then
      some ((), c.token (lineEnd s.text (fun x => !isTagPart x) s.text.size c.pos - c.pos))
    else none

/-- Reads the name of an element or an attribute. -/
def tagName : Parser s Unit := do
  tagWord
  many do
    symbol ":" <|> symbol "."
    tagWord

/-- Reads code between braces. -/
def container : Parser s Unit := do
  symbol "\x7b"
  discard (optional (symbol "..."))
  discard (optional (sub (.expression true)))
  symbol "\x7d"

/-- Reads an attribute. -/
def tagAttribute : Parser s Unit := container sub <|> (do
  tagName
  discard (optional do
    symbol "="
    markupString <|> container sub <|> sub .element))

/-- Reads text between tags. -/
def markupText : Parser s Unit := fun _ c =>
  match lineEnd s.text (fun x => x == '{' || x == '<') s.text.size c.pos - c.pos with
  | 0 => none
  | n + 1 => some ((), c.token (n + 1))

/-- Reads one piece of the content of an element. -/
def content : Parser s Unit := do
  reopen
  markupText <|> container sub <|> (do
    guard !(← looking "</")
    sub .element)

/-- Reads the content of an element and its closing tag. -/
def closed : Parser s Unit := do
  symbol ">"
  many (content sub)
  reopen
  symbol "</"
  discard (optional tagName)
  symbol ">"

/-- Reads an element. -/
def element : Parser s Unit := node .markupElement do
  symbol "<"
  closed sub <|> (do
    tagName
    discard (optional (typeArguments sub))
    many (tagAttribute sub)
    (do
        symbol "/"
        symbol ">") <|>
      closed sub)

end ImportAudit.Grammar.Parser
