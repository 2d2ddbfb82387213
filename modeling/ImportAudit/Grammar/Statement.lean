/-
# ImportAudit.Grammar.Statement — statements, declarations and the forms of import and export.

An import statement has its source as a child of its own; so has an export statement that names
one.  All other literals inside the two lie under a clause, an attribute or a declaration.  What
cannot be read as a statement is passed token by token.
-/
import ImportAudit.Grammar.Expression

namespace ImportAudit.Grammar.Parser

open Outline

variable {s : Script} (sub : Goal → Parser s Unit)

/-- Reads the semicolon that may end a statement. -/
def ending : Parser s Unit := discard (optional (symbol ";"))

/-! ## Imports -/

/-- Reads attributes of a module behind `with` or `assert`. -/
def attributes : Parser s Unit := node .importAttribute do
  oneOf ["with", "assert"]
  objectLiteral sub

/-- Reads the source of an import or export, with its attributes. -/
def source : Parser s Unit := do
  string
  discard (optional (attributes sub))

/-- Reads names between braces. -/
def nameList (k : Kind) (h : k.isToken = false) : Parser s Unit :=
  node k (do
    symbol "\x7b"
    many (name <|> string <|> symbol ",")
    symbol "\x7d") h

/-- Reads `from` before a source. -/
def fromSource : Parser s Unit := do
  keyword "from"
  guard ((← at? '"') || (← at? '\''))
  source sub

/-- Reads what an import introduces, up to its source. -/
def importTarget : Parser s Unit := do
  guard !(← follows (fromSource sub))
  name <|> symbol "*" <|> symbol "," <|> nameList .importClause rfl

/-- Reads `x = require("m")`. -/
def requireClause : Parser s Unit := do
  discard (optional do
    oneOf ["type", "typeof"]
    guard (← atName))
  node .importRequireClause do
    name
    symbol "="
    keyword "require"
    symbol "("
    string
    symbol ")"

/-- Reads `x = a.b`. -/
def importAlias : Parser s Unit := do
  discard (optional do
    keyword "type"
    guard (← atName))
  name
  symbol "="
  name
  many member

/-- Reads an import statement. -/
def importStatement : Parser s Unit := do
  keyword "import"
  guard !((← at? '(') || (← at? '.'))
  source sub <|> requireClause <|> importAlias <|> (do
    many (importTarget sub)
    fromSource sub)
  ending

/-! ## Variables -/

/-- Reads one variable with its ascription and initial value. -/
def declarator (allowIn : Bool) : Parser s Unit := do
  bindingTarget sub
  discard (optional (symbolNot "!" ['=']))
  discard (optional (ascription sub))
  discard (optional (initializer sub allowIn))

/-- Reads variables behind the word that declares them. -/
def variableList (allowIn : Bool) : Parser s Unit := node .declaration do
  oneOf ["var", "let", "const", "using"]
  guard ((← at? '[') || (← at? '{') ||
    ((← atName) && !(["in", "instanceof"].contains (← word))))
  declarator sub allowIn
  many do
    symbol ","
    declarator sub allowIn

/-! ## Declarations -/

/-- Reads a member of an enumeration. -/
def enumMember : Parser s Unit := do
  propertyName sub
  discard (optional (initializer sub true))

/-- Reads an enumeration. -/
def enumeration : Parser s Unit := do
  discard (optional (keyword "const"))
  keyword "enum"
  name
  symbol "\x7b"
  commaList (enumMember sub)
  symbol "\x7d"

/-- Reads a type alias. -/
def typeAlias : Parser s Unit := node .typeAliasDeclaration do
  keyword "type"
  guard !(← lineBreak)
  name
  discard (optional (typeParameters sub))
  symbol "="
  sub .type

/-- Reads an interface. -/
def interface : Parser s Unit := do
  keyword "interface"
  guard !(← lineBreak)
  name
  discard (optional (typeParameters sub))
  discard (optional do
    keyword "extends"
    sub .type
    many do
      symbol ","
      sub .type)
  node .interfaceBody (objectBody sub)

/-- Reads a namespace or a module with its body. -/
def namespaceBlock : Parser s Unit := do
  oneOf ["namespace", "module"]
  guard !(← lineBreak)
  string <|> (do
    name
    many member)
  discard (optional (block sub))

/-- Reads a class, abstract or not. -/
def classDeclaration : Parser s Unit := do
  discard (optional do
    keyword "abstract"
    guard !(← lineBreak))
  classTail sub

/-- Reads a declaration other than of variables. -/
def namedDeclaration : Parser s Unit :=
  functionTail sub <|> classDeclaration sub <|> enumeration sub <|> typeAlias sub <|>
    interface sub <|> namespaceBlock sub

/-- Reads a declaration that says what exists elsewhere. -/
def ambient : Parser s Unit := do
  keyword "declare"
  guard !(← lineBreak)
  namedDeclaration sub <|> variableList sub true <|> (do
    keyword "global"
    block sub)

/-- Reads a declaration. -/
def declaration : Parser s Unit := node .declaration do
  ambient sub <|> namedDeclaration sub <|> variableList sub true
  ending

/-! ## Exports -/

/-- Reads names that are exported, and the source that they come from if one is given. -/
def exportNames : Parser s Unit := do
  discard (optional (keyword "type"))
  (do
      symbol "*"
      discard (optional do
        keyword "as"
        name <|> node .exportClause string)
      fromSource sub) <|>
    (do
      nameList .exportClause rfl
      discard (optional (fromSource sub)))

/-- Reads what is exported without a source. -/
def exportValue : Parser s Unit := node .declaration do
  (do
      symbol "="
      sub (.expression true)) <|>
    (do
      keyword "as"
      keyword "namespace"
      name) <|>
    (do
      keyword "default"
      functionTail sub <|> classDeclaration sub <|> interface sub <|> (do
        many (decorator sub)
        classDeclaration sub) <|> sub (.expression true)) <|>
    (do
      keyword "import"
      many (name <|> symbol "=" <|> symbol "." <|> symbol "(" <|> string <|> symbol ")"))

/-- Reads an export statement. -/
def exportStatement : Parser s Unit := node .exportStatement do
  many (decorator sub)
  keyword "export"
  exportNames sub <|> exportValue sub <|> (do
    many (decorator sub)
    declaration sub)
  ending

/-! ## Statements that govern others -/

/-- Reads an expression in parentheses. -/
def condition : Parser s Unit := do
  symbol "("
  sub (.expression true)
  symbol ")"

/-- Reads what stands between the parentheses of a loop. -/
def loopHead : Parser s Unit := do
  symbol "("
  discard (optional (variableList sub false <|> sub (.expression false)))
  (do
      oneOf ["in", "of"]
      sub (.expression true)) <|>
    (do
      symbol ";"
      discard (optional (sub (.expression true)))
      symbol ";"
      discard (optional (sub (.expression true))))
  symbol ")"

/-- Reads the clauses behind a protected block. -/
def handlers : Parser s Unit := do
  discard (optional do
    keyword "catch"
    discard (optional do
      symbol "("
      parameter sub
      symbol ")")
    block sub)
  discard (optional do
    keyword "finally"
    block sub)

/-- Reads one label of a switch with its statements. -/
def switchCase : Parser s Unit := do
  (do
      keyword "case"
      sub (.expression true)) <|>
    keyword "default"
  symbol ":"
  many do
    guard !(← at? '}')
    guard !(["case", "default"].contains (← word))
    sub .statement

/-- Reads an expression that is a statement. -/
def expressionStatement : Parser s Unit := node .expressionStatement do
  sub (.expression true)
  ending

/-- Reads a label and the statement that it names. -/
def labelled : Parser s Unit := do
  name
  symbol ":"
  sub .statement

/-- Reads a statement that begins with the word `w`, if `w` is a word that says which statement
it begins. -/
def governed (w : String) : Parser s Unit := do
  match w with
  | "if" =>
    keyword "if"
    condition sub
    sub .statement
    discard (optional do
      keyword "else"
      sub .statement)
  | "for" =>
    keyword "for"
    discard (optional (keyword "await"))
    loopHead sub
    sub .statement
  | "while" =>
    keyword "while"
    condition sub
    sub .statement
  | "do" =>
    keyword "do"
    sub .statement
    keyword "while"
    condition sub
    ending
  | "try" =>
    keyword "try"
    block sub
    handlers sub
  | "switch" =>
    keyword "switch"
    condition sub
    symbol "\x7b"
    many (switchCase sub)
    symbol "\x7d"
  | "with" =>
    keyword "with"
    condition sub
    sub .statement
  | "return" =>
    keyword "return"
    discard (optional do
      guard !(← lineBreak)
      sub (.expression true))
    ending
  | "throw" =>
    keyword "throw"
    sub (.expression true)
    ending
  | "break" =>
    keyword "break"
    label
  | "continue" =>
    keyword "continue"
    label
  | "debugger" =>
    keyword "debugger"
    ending
  | _ => fail
where
  label : Parser s Unit := do
    discard (optional do
      guard !(← lineBreak)
      name)
    ending

/-- Reads whatever comes next as one token. -/
def anyToken : Parser s Unit := do
  match ← here with
  | none => fail
  | some _ => string <|> templateString (sub (.expression true)) <|> name <|> number <|> token 1

/-- Reads a statement or a declaration; what is neither is passed token by token. -/
def statement : Parser s Unit := do
  skipHtml
  match ← here with
  | none => fail
  | some '{' => block sub <|> anyToken sub
  | some ';' => symbol ";"
  | some '@' =>
    exportStatement sub <|>
      node .declaration (do
        many (decorator sub)
        declaration sub <|> classDeclaration sub) <|>
      anyToken sub
  | some _ =>
    governed sub (← word) <|> node .importStatement (importStatement sub) <|>
      exportStatement sub <|> declaration sub <|> labelled sub <|> expressionStatement sub <|>
      anyToken sub

end ImportAudit.Grammar.Parser
