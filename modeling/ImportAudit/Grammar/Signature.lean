/-
# ImportAudit.Grammar.Signature — what functions, classes, objects and types have in common.

Arguments, decorators, property names, parameters, type parameters, ascriptions and bodies.  All of
these contain whole expressions, statements or types, for which they ask by naming a `Goal`; the
readers of the goals are handed in as `sub`.
-/
import ImportAudit.Grammar.Lexeme

namespace ImportAudit.Grammar

open Outline

/-- What may be read inside another construct. -/
inductive Goal
  /-- A statement or a declaration. -/
  | statement
  /-- One or more expressions separated by commas. -/
  | expression (allowIn : Bool)
  /-- An expression without a comma; `allowIn` says whether `in` is an operator in it, and
  `inBranch` that it stands between `?` and `:`. -/
  | assignment (allowIn inBranch : Bool)
  /-- An object or array literal, which is also how a pattern is written. -/
  | pattern
  /-- One operand of an expression with its prefix operators and all that is applied to it. -/
  | operand (allowIn inBranch : Bool)
  /-- What `new` is applied to: an operand with its members, but without a call. -/
  | callee
  /-- A markup element. -/
  | element
  /-- A type. -/
  | type
  /-- A type without a condition. -/
  | typeUnion

namespace Parser

variable {s : Script} (sub : Goal → Parser s Unit)

/-! ## Arguments and decorators -/

/-- Reads an expression without a comma, or one behind `...`. -/
def spreadable : Parser s Unit := nodeIf .expression do
  let spread ← optional (symbol "...")
  sub (.assignment true false)
  pure spread

/-- Reads the arguments of a call with their parentheses. -/
def arguments : Parser s Unit := node .arguments do
  symbol "("
  skipHtml
  commaList (spreadable sub)
  symbol ")"

/-- Reads types between angle brackets. -/
def typeArguments : Parser s Unit := node .typeArguments do
  symbol "<"
  sub .type
  many do
    symbol ","
    sub .type
  discard (optional (symbol ","))
  symbol ">"

/-- Reads `.name` or `.#name`. -/
def member : Parser s Unit := do
  symbolNot "." ['.']
  name <|> privateName

/-- Reads a decorator: `@` and a name, a path or a call of either, or an expression in
parentheses. -/
def decorator : Parser s Unit := node .expression do
  symbol "@"
  if ← at? '(' then
    symbol "("
    sub (.expression true)
    symbol ")"
  else nodeIf .expression do
    nameLeaf
    if ← some? member then gather .expression
    discard (optional (typeArguments sub))
    if ← optional (arguments sub) then gather .callExpression
    pure false

/-! ## Names of properties and modifiers -/

/-- Reads the name of a property. -/
def propertyName : Parser s Unit := do
  if ← at? '[' then node .expression do
    symbol "["
    sub (.expression true)
    symbol "]"
  else name <|> string <|> number <|> privateName

/-- The next token begins neither the rest of a property whose name is complete nor the end of the
list of properties. -/
def continuesName : Parser s Bool := do
  match ← here with
  | none => pure false
  | some c => pure (!(['(', '<', ':', '=', ';', ',', '}', ')', '?', '!'].contains c))

/-- Reads one of the modifiers `ws`, a word that stands before the name it modifies. -/
def modifier (ws : List String) : Parser s Unit := do
  oneOf ws
  guard (← continuesName)

/-! ## Annotations -/

/-- Reads `x is T`, `asserts x` or `asserts x is T`. -/
def typePredicate : Parser s Unit :=
  (do
    keyword "asserts"
    guard (!(← lineBreak) && (← atName) && (← word) != "is")
    name
    discard (optional do
      guard !(← lineBreak)
      keyword "is"
      sub .type)) <|>
  (do
    name
    guard !(← lineBreak)
    keyword "is"
    sub .type)

/-- Reads `:` and a type. -/
def ascription : Parser s Unit := node .typeAscription do
  symbol ":"
  sub .type

/-- Reads what a function returns: an ascription or a predicate. -/
def returnAscription : Parser s Unit :=
  node .predicateAscription (do
    symbol ":"
    typePredicate sub) <|>
  ascription sub

/-- Reads one type parameter, with its modifiers, constraint and default. -/
def typeParameter : Parser s Unit := do
  many do
    oneOf ["const", "in", "out"]
    guard (← atName)
  name
  discard (optional do
    keyword "extends"
    sub .type)
  discard (optional (node .defaultType do
    symbol "="
    sub .type))

/-- Reads type parameters between angle brackets. -/
def typeParameters : Parser s Unit := do
  symbol "<"
  typeParameter sub
  many do
    symbol ","
    typeParameter sub
  discard (optional (symbol ","))
  symbol ">"

/-! ## Parameters and bodies -/

/-- Reads the modifiers that may stand before a parameter or a member. -/
def accessibility : List String :=
  ["public", "private", "protected", "readonly", "override", "declare", "static", "abstract"]

/-- Reads `=` and an expression. -/
def initializer (allowIn : Bool) : Parser s Unit := do
  symbolNot "=" ['=', '>']
  sub (.assignment allowIn false)

/-- Reads the name or pattern that a declaration binds. -/
def bindingTarget : Parser s Unit := sub .pattern <|> nameLeaf

/-- Reads one parameter. -/
def parameter : Parser s Unit := do
  many (decorator sub)
  many (modifier accessibility)
  discard (optional (symbol "..."))
  bindingTarget sub
  discard (optional (symbol "?"))
  discard (optional (ascription sub))
  discard (optional (initializer sub true))

/-- Reads parameters with their parentheses. -/
def parameters : Parser s Unit := do
  symbol "("
  skipHtml
  commaList (parameter sub)
  symbol ")"

/-- Reads type parameters, parameters and what is returned. -/
def signature : Parser s Unit := do
  discard (optional (typeParameters sub))
  parameters sub
  discard (optional (returnAscription sub))

/-- Reads statements between braces. -/
def block : Parser s Unit := node .statementBlock do
  symbol "\x7b"
  many do
    guard !(← at? '}')
    sub .statement
  symbol "\x7d"

/-- Reads a signature and, if there is one, a body. -/
def method : Parser s Unit := do
  signature sub
  discard (optional (block sub))

end Parser

end ImportAudit.Grammar
