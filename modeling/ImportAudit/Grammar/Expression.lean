/-
# ImportAudit.Grammar.Expression — how an expression is written.

The outline does not record which operator binds tighter, so an expression is a row of operands and
operators.  An operand is a primary expression followed by accesses and calls; only a call whose
function is a lone name keeps that name as its first child, which is how `require("m")` and
`a.require("m")` differ.  Parentheses are read once, and what follows them decides whether they held
the parameters of an arrow function.

An angle bracket behind an operand opens type arguments if they are followed by a call, with one
exception: where an `import(...)` is reached before anything tells a type from a value, it is read
as a value, and the bracket as a comparison.
-/
import ImportAudit.Grammar.Types

namespace ImportAudit.Grammar.Parser

open Outline

variable {s : Script} (sub : Goal → Parser s Unit)

/-! ## Arrow functions and parentheses -/

/-- Reads `=>` and the body of an arrow function. -/
def arrowBody (allowIn inBranch : Bool) : Parser s Unit := do
  symbol "=>"
  block sub <|> sub (.assignment allowIn inBranch)

/-- Reads the rest of an arrow function whose parameters have been read.  Between `?` and `:` a
colon belongs to the arrow function only if another one follows its body. -/
def arrowTail (allowIn inBranch : Bool) : Parser s Unit :=
  arrowBody sub allowIn inBranch <|> (do
    returnAscription sub
    arrowBody sub allowIn inBranch
    guard (!inBranch || (← at? ':')))

/-- Reads a place between parentheses: an expression, or a parameter of an arrow function. -/
def parenthesizedItem : Parser s Unit := do
  spreadable sub
  discard (optional (symbolNot "?" ['?', '.']))
  discard (optional (ascription sub))
  discard (optional (initializer sub true))

/-- Reads places between parentheses. -/
def parenthesizedItems : Parser s Unit := do
  symbol "("
  skipHtml
  commaList (parenthesizedItem sub)
  symbol ")"

/-- Reads an expression in parentheses, or an arrow function that begins with them. -/
def parenthesized (allowIn inBranch : Bool) : Parser s Unit := node .expression do
  parenthesizedItems sub
  discard (optional (arrowTail sub allowIn inBranch))

/-- Reads an arrow function with type parameters. -/
def genericArrow (allowIn inBranch : Bool) : Parser s Unit := node .expression do
  typeParameters sub
  parenthesizedItems sub
  arrowTail sub allowIn inBranch

/-- Reads an arrow function behind `async`. -/
def asyncArrow (allowIn inBranch : Bool) : Parser s Unit := node .expression do
  keyword "async"
  (do
      discard (optional (typeParameters sub))
      parenthesizedItems sub
      arrowTail sub allowIn inBranch) <|>
    (do
      guard !(← lineBreak)
      nameLeaf
      arrowBody sub allowIn inBranch)

/-- Reads a type assertion, a type in angle brackets before an operand. -/
def assertion (allowIn inBranch : Bool) : Parser s Unit := node .expression do
  (do
      typeParameters sub
      guard (← at? '(')) <|>
    typeArguments sub
  sub (.operand allowIn inBranch)

/-! ## Functions, classes and literals -/

/-- Reads a function with its body, if there is one. -/
def functionTail : Parser s Unit := do
  discard (optional do
    keyword "async"
    guard !(← lineBreak))
  keyword "function"
  discard (optional (symbol "*"))
  discard (optional name)
  method sub

/-- Reads a member of a class. -/
def classMember : Parser s Unit := do
  skipHtml
  symbol ";" <|> (do
    many (decorator sub)
    staticBlock <|>
      (do
        many (modifier accessibility)
        indexSignature sub) <|>
      (do
        many (modifier (["accessor", "async", "get", "set"] ++ accessibility))
        discard (optional (symbol "*"))
        propertyName sub
        discard (optional (symbol "?" <|> symbol "!"))
        if (← at? '(') || (← at? '<') then method sub
        else
          discard (optional (ascription sub))
          discard (optional (initializer sub true))))
where
  staticBlock : Parser s Unit := do
    keyword "static"
    block sub

/-- Reads the members of a class with their braces. -/
def classBody : Parser s Unit := node .declaration do
  symbol "\x7b"
  many (classMember sub)
  skipHtml
  symbol "\x7d"

/-- Reads a class from its keyword on. -/
def classTail : Parser s Unit := do
  keyword "class"
  discard (optional do
    guard !(["extends", "implements"].contains (← word))
    name)
  discard (optional (typeParameters sub))
  discard (optional do
    keyword "extends"
    heir
    many do
      symbol ","
      heir)
  discard (optional do
    keyword "implements"
    sub .type
    many do
      symbol ","
      sub .type)
  classBody sub
where
  heir : Parser s Unit := do
    sub (.operand true false)
    discard (optional (typeArguments sub))

/-- Reads a place of an object literal or an object pattern. -/
def property : Parser s Unit := do
  skipHtml
  (do
      symbol "..."
      sub (.assignment true false)) <|>
    (do
      many (decorator sub)
      many (modifier ("get" :: "set" :: "async" :: accessibility))
      discard (optional (symbol "*"))
      propertyName sub
      discard (optional (symbol "?" <|> symbol "!"))
      if (← at? '(') || (← at? '<') then method sub
      else discard (optional (value <|> initializer sub true)))
where
  value : Parser s Unit := do
    symbol ":"
    sub (.assignment true false)

/-- Reads an object literal or an object pattern. -/
def objectLiteral : Parser s Unit := node .object do
  symbol "\x7b"
  commaList (property sub)
  skipHtml
  symbol "\x7d"

/-- Reads an array literal or an array pattern. -/
def arrayLiteral : Parser s Unit := node .expression do
  symbol "["
  skipHtml
  commaList (spreadable sub)
  symbol "]"

/-- Reads an object or an array literal, or a pattern of either form. -/
def pattern : Parser s Unit := objectLiteral sub <|> arrayLiteral sub

/-! ## Primary expressions -/

/-- How an operand stands while accesses and calls are applied to it. -/
inductive Shape
  /-- A lone name, or the word `import`. -/
  | lone
  /-- A single node that is no lone name. -/
  | single
  /-- A row of nodes that belong together. -/
  | loose
  deriving DecidableEq

/-- The words that begin no operand. -/
def reserved : List String :=
  ["break", "case", "catch", "continue", "debugger", "default", "do", "else", "enum", "export",
    "extends", "finally", "for", "if", "in", "instanceof", "return", "switch", "throw", "try",
    "var", "while", "with", "const"]

/-- Reads `new` and what it makes. -/
def construction : Parser s Unit := node .expression do
  keyword "new"
  if ← optional member then pure ()
  else
    sub .callee
    discard (optional (typeArguments sub))
    discard (optional (arguments sub))

/-- Reads a name, or an arrow function whose only parameter it is. -/
def nameOrArrow (allowIn inBranch : Bool) : Parser s Shape := do
  guard !(reserved.contains (← word))
  nameLeaf
  if ← optional (arrowBody sub allowIn inBranch) then pure .loose
  else pure .lone

/-- Reads an expression that begins with a word. -/
def wordExpression (allowIn inBranch : Bool) : Parser s Shape := do
  match ← word with
  | "function" => do
    node .expression (functionTail sub)
    pure .single
  | "class" => do
    node .expression (classTail sub)
    pure .single
  | "new" => do
    construction sub
    pure .single
  | "import" => do
    node .importWord (keyword "import")
    pure .lone
  | "async" =>
    (do
      node .expression (functionTail sub)
      pure .single) <|>
    (do
      asyncArrow sub allowIn inBranch
      pure .single) <|>
    nameOrArrow sub allowIn inBranch
  | "await" =>
    (do
      keyword "await"
      sub (.operand allowIn inBranch)
      pure .loose) <|>
    nameOrArrow sub allowIn inBranch
  | "yield" =>
    (do
      keyword "yield"
      guard !(← lineBreak)
      discard (optional (symbol "*"))
      sub (.assignment allowIn inBranch)
      pure .loose) <|>
    nameOrArrow sub allowIn inBranch
  | _ => nameOrArrow sub allowIn inBranch

/-- Reads an expression that begins with an angle bracket: in a markup script a generic arrow
function or an element, elsewhere a generic arrow function or a type assertion. -/
def angleExpression (allowIn inBranch : Bool) : Parser s Unit :=
  if s.markup then genericArrow sub allowIn inBranch <|> sub .element
  else assertion sub allowIn inBranch

/-- Reads a primary expression. -/
def primary (allowIn inBranch : Bool) : Parser s Shape := do
  match ← here with
  | none => fail
  | some '(' => single (parenthesized sub allowIn inBranch)
  | some '[' => single (arrayLiteral sub)
  | some '{' => single (objectLiteral sub)
  | some '<' => single (angleExpression sub allowIn inBranch)
  | some '"' => single string
  | some '\'' => single string
  | some '`' => single (templateString (sub (.expression true)))
  | some '/' => single regex
  | some '#' => single privateName
  | some '@' => single (node .expression do
      many (decorator sub)
      classTail sub)
  | some _ =>
    single number <|> wordExpression sub allowIn inBranch
where
  single (p : Parser s Unit) : Parser s Shape := do
    p
    pure .single

/-! ## Operands -/

/-- Reads arguments and makes the operand a call. -/
def call (shape : Shape) : Parser s Shape := do
  if shape = .lone then pure () else gather .expression
  discard (optional (typeArguments sub))
  arguments sub
  gather .callExpression
  pure .single

/-- Reads a template that the operand is applied to. -/
def taggedTemplate : Parser s Shape := do
  templateString (sub (.expression true))
  gather .callExpression
  pure .single

/-- Reads `[...]` behind an operand. -/
def index : Parser s Shape := do
  symbol "["
  sub (.expression true)
  symbol "]"
  pure .loose

/-- An `import(...)` comes before anything that tells a type from a value. -/
def undecidedImport : Parser s Unit := do
  many (keyword "typeof" <|> symbol "(" <|> symbol "[" <|> (do
    symbol "\x7b"
    propertyName sub
    symbol ":"))
  keyword "import"
  guard (← at? '(')

/-- Type arguments end here although no call follows: no operand can. -/
def endsInstance : Parser s Bool := do
  match ← here with
  | none => pure true
  | some c =>
    pure ([')', ']', '}', ';', ',', ':', '.', '?', '=', '|', '&', '^', '*', '%'].contains c ||
      (← lineBreak))

/-- Reads type arguments behind an operand, with the call that follows them if there is one. -/
def instanceOrCall (shape : Shape) : Parser s Shape := do
  guard !(← follows (do
    symbol "<"
    undecidedImport sub))
  call sub shape <|> (do
    typeArguments sub
    if ← at? '`' then taggedTemplate sub
    else
      guard (← endsInstance)
      pure .loose)

/-- Reads `?.` and what it guards. -/
def optionalStep (shape : Shape) : Parser s Shape := do
  symbolNot "?." ['0', '1', '2', '3', '4', '5', '6', '7', '8', '9']
  call sub shape <|> index sub <|> (do
    name <|> privateName
    pure .loose)

/-- Reads one access or call behind an operand. -/
def operandStep (shape : Shape) : Parser s Shape := do
  match ← here with
  | some '.' => do
    member
    pure .loose
  | some '?' => optionalStep sub shape
  | some '[' => index sub
  | some '(' => call sub shape
  | some '`' => taggedTemplate sub
  | some '<' => instanceOrCall sub shape
  | some '!' => do
    guard !(← lineBreak)
    symbolNot "!" ['=']
    pure .loose
  | some '+' => do
    guard !(← lineBreak)
    symbol "++"
    pure .loose
  | some '-' => do
    guard !(← lineBreak)
    symbol "--"
    pure .loose
  | _ => fail

/-- Reads one prefix operator. -/
def prefixOperator : Parser s Unit :=
  symbol "++" <|> symbol "--" <|> symbol "+" <|> symbol "-" <|> symbol "!" <|> symbol "~" <|>
    oneOf ["typeof", "void", "delete"]

/-- Reads an operand with all that is applied to it. -/
def appliedOperand (allowIn inBranch : Bool) : Parser s Unit := nodeIf .expression do
  let shape ← primary sub allowIn inBranch
  let shape ← iterate (operandStep sub) shape
  pure (shape == .loose)

/-- Reads an operand with its prefix operators and all that is applied to it. -/
def operand (allowIn inBranch : Bool) : Parser s Unit := nodeIf .expression do
  let led ← some? prefixOperator
  appliedOperand sub allowIn inBranch
  pure led

/-- Reads what `new` is applied to. -/
def callee : Parser s Unit := nodeIf .expression do
  let shape ← primary sub true false
  let shape ← iterate accessStep shape
  pure (shape == .loose)
where
  accessStep (_ : Shape) : Parser s Shape :=
    (do
      member
      pure .loose) <|> index sub

/-! ## Rows of operands -/

/-- The operators between two operands, each before those that it begins with. -/
def operators : List String :=
  [">>>=", "**=", "<<=", ">>=", ">>>", "&&=", "||=", "??=", "===", "!==", "**", "<<", ">>", "<=",
    ">=", "==", "!=", "&&", "||", "??", "+=", "-=", "*=", "/=", "%=", "&=", "|=", "^=", "+", "-",
    "*", "/", "%", "<", ">", "&", "|", "^"]

/-- Reads the first of the symbols `ts` that comes next. -/
def firstSymbol : List String → Parser s Unit
  | [] => fail
  | t :: ts => symbol t <|> firstSymbol ts

/-- Reads an operator between two operands. -/
def operator (allowIn : Bool) : Parser s Unit := do
  guard !(← looking "=>")
  if ← atName then
    if allowIn then oneOf ["instanceof", "in"] else keyword "instanceof"
  else firstSymbol operators <|> symbolNot "=" ['>']

/-- Reads `as` or `satisfies` and a type, on the line of what they follow. -/
def typeClause : Parser s Unit := do
  guard !(← lineBreak)
  oneOf ["as", "satisfies"]
  sub .type

/-- Reads an operator and its right operand, or a type clause. -/
def rowStep (allowIn inBranch : Bool) : Parser s Unit :=
  typeClause sub <|> (do
    operator allowIn
    skipHtml
    sub (.operand allowIn inBranch))

/-- Reads the two branches of a condition; a question mark that marks a parameter as optional
begins none. -/
def branches (allowIn inBranch : Bool) : Parser s Unit := do
  guard !(← looking "??")
  symbol "?"
  match ← here with
  | none => fail
  | some c => guard !([':', ',', ')', '='].contains c)
  sub (.assignment true true)
  symbol ":"
  sub (.assignment allowIn inBranch)

/-- Reads an expression without a comma. -/
def assignment (allowIn inBranch : Bool) : Parser s Unit := nodeIf .expression do
  skipHtml
  sub (.operand allowIn inBranch)
  let row ← some? (rowStep sub allowIn inBranch)
  let condition ← optional (branches sub allowIn inBranch)
  pure (row || condition)

/-- Reads one or more expressions separated by commas. -/
def expression (allowIn : Bool) : Parser s Unit := nodeIf .expression do
  sub (.assignment allowIn false)
  some? do
    symbol ","
    sub (.assignment allowIn false)

end ImportAudit.Grammar.Parser
