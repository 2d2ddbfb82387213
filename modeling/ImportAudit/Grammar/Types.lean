/-
# ImportAudit.Grammar.Types — how a type is written.

A type is a union of operands, possibly under a condition.  An operand is a primary type with the
brackets that follow it, or a function, a constructor, a query or a modified type.  Parentheses are
read once: whether they hold the parameters of a function or a type is decided by what follows
them.  An `import(...)` that stands for a type is a call, and not a type form itself.
-/
import ImportAudit.Grammar.Signature

namespace ImportAudit.Grammar.Parser

open Outline

variable {s : Script} (sub : Goal → Parser s Unit)

/-! ## Paths that begin at a value -/

/-- Reads `[...]` around a string, a number or a name, on the line of what it follows. -/
def literalIndex : Parser s Unit := do
  guard !(← lineBreak)
  symbol "["
  string <|> number <|> name
  symbol "]"

/-- Reads one step from a value to a part of it, or to the result of calling it. -/
def valueStep : Parser s Unit :=
  (do
    member
    gather .expression) <|>
  (do
    guard !(← lineBreak)
    arguments sub
    gather .callExpression) <|>
  (do
    literalIndex
    gather .expression) <|>
  (do
    typeArguments sub
    gather .expression)

/-- Reads `import(...)` and the path behind it. -/
def importedType : Parser s Unit := nodeIf .expression do
  node .importWord (keyword "import")
  arguments sub
  gather .callExpression
  many (valueStep sub)
  pure false

/-- Reads `typeof` and the path of a value. -/
def typeQuery : Parser s Unit := node .typeQuery do
  keyword "typeof"
  importedType sub <|> nodeIf .expression do
    nameLeaf
    many (valueStep sub)
    pure false

/-! ## Members of an object type -/

/-- Reads the ascription of an index signature, which may add or remove optionality. -/
def indexAscription : Parser s Unit :=
  node .omittingAscription (do symbol "-?:"; sub .type) <|>
  node .addingAscription (do symbol "+?:"; sub .type) <|>
  node .optingAscription (do symbol "?:"; sub .type) <|>
  ascription sub

/-- Reads `[key: T]` or `[K in T]` and the ascription behind it. -/
def indexSignature : Parser s Unit := do
  discard (optional (symbol "-" <|> symbol "+"))
  discard (optional (modifier ["readonly"]))
  symbol "["
  name
  (do
      symbol ":"
      sub .type) <|>
    (do
      keyword "in"
      sub .type
      discard (optional do
        keyword "as"
        sub .type))
  symbol "]"
  discard (optional (indexAscription sub))

/-- Reads a property or a method of an object type. -/
def typeMember : Parser s Unit := do
  discard (optional (symbol "..."))
  many (modifier ("get" :: "set" :: "async" :: accessibility))
  propertyName sub
  discard (optional (symbol "?" <|> symbol "!"))
  if (← at? '(') || (← at? '<') then signature sub
  else discard (optional (ascription sub))

/-- Reads a member of an object type without what separates it from the next. -/
def objectMember : Parser s Unit :=
  (do
    guard ((← at? '(') || (← at? '<'))
    signature sub) <|>
  (do
    keyword "new"
    signature sub) <|>
  indexSignature sub <|>
  typeMember sub

/-- Reads the members of an object type with their braces. -/
def objectBody : Parser s Unit := do
  symbol "\x7b|" <|> symbol "\x7b"
  skipHtml
  many do
    objectMember sub <|> symbol "," <|> symbol ";"
    skipHtml
  symbol "|\x7d" <|> symbol "\x7d"

/-! ## Operands -/

/-- Reads a place of a tuple. -/
def tuplePlace : Parser s Unit := do
  discard (optional (symbol "..."))
  sub .type
  discard (optional (symbol "?"))
  discard (optional (ascription sub))

/-- Reads `=>` and what a function type returns. -/
def typeResult : Parser s Unit := do
  symbol "=>"
  typePredicate sub <|> sub .type

/-- Reads a function type, with its type parameters if it has any. -/
def functionType : Parser s Unit := node .functionType do
  discard (optional (typeParameters sub))
  parameters sub
  typeResult sub

/-- Reads the type of a constructor. -/
def constructorType : Parser s Unit := node .constructorType do
  discard (optional (keyword "abstract"))
  keyword "new"
  discard (optional (typeParameters sub))
  parameters sub
  typeResult sub

/-- Reads a type in parentheses. -/
def parenthesizedType : Parser s Unit := node .parenthesizedType do
  symbol "("
  skipHtml
  sub .type
  symbol ")"

/-- Reads the name of a type, possibly a path, with its arguments. -/
def namedType : Parser s Unit := nodeIf .genericType do
  name
  many member
  optional (typeArguments sub)

/-- Reads a type that no modifier precedes and no bracket follows. -/
def primaryType : Parser s Unit := do
  match ← here with
  | none => fail
  | some '(' => functionType sub <|> parenthesizedType sub
  | some '{' => node .objectType (objectBody sub)
  | some '[' => node .tupleType do
      symbol "["
      commaList (tuplePlace sub)
      symbol "]"
  | some '<' => functionType sub
  | some '"' => node .literalType string
  | some '\'' => node .literalType string
  | some '`' => templateType (sub .type)
  | some '*' => symbol "*"
  | some '?' => node .flowMaybeType do
      symbol "?"
      sub .typeUnion
  | some '-' => node .literalType do
      symbol "-"
      number
  | some c =>
    if c.isDigit || c == '.' then node .literalType number
    else match ← word with
      | "import" => importedType sub <|> namedType sub
      | "typeof" => typeQuery sub
      | "new" => constructorType sub
      | "abstract" => constructorType sub <|> namedType sub
      | _ => namedType sub

/-- Reads one pair of brackets behind a type. -/
def bracket : Parser s Unit := do
  guard !(← lineBreak)
  symbol "["
  if ← at? ']' then
    symbol "]"
    gather .arrayType
  else
    sub .type
    symbol "]"
    gather .lookupType

/-- Reads a primary type and the brackets behind it. -/
def bracketedType : Parser s Unit := nodeIf .arrayType do
  primaryType sub
  many (bracket sub)
  pure false

/-- Reads a word that modifies the type behind it, as a node of kind `k`. -/
def modifiedType (w : String) (k : Kind) (h : k.isToken = false := by exact Eq.refl false) :
    Parser s Unit :=
  node k (do
    keyword w
    guard (← startsType)
    sub .typeUnion) h
where
  startsType : Parser s Bool := do
    match ← here with
    | none => pure false
    | some c => pure (Text.isNamePart c || ['(', '{', '[', '"', '\'', '`'].contains c)

/-- Reads `infer` and the name that it introduces. -/
def inferType : Parser s Unit := node .inferType do
  keyword "infer"
  guard (← atName)
  name

/-- Reads one operand of a union or an intersection. -/
def typeOperand : Parser s Unit := do
  match ← word with
  | "readonly" => modifiedType sub "readonly" .readonlyType <|> bracketedType sub
  | "keyof" => modifiedType sub "keyof" .indexTypeQuery <|> bracketedType sub
  | "infer" => inferType <|> bracketedType sub
  | "unique" =>
    (do
      keyword "unique"
      keyword "symbol") <|> bracketedType sub
  | _ => bracketedType sub

/-! ## Unions and conditions -/

/-- Reads `|` or `&`, but neither of them doubled. -/
def typeOperator : Parser s Unit := symbolNot "|" ['|', '='] <|> symbolNot "&" ['&', '=']

/-- Reads operands joined by `|` and `&`. -/
def typeUnion : Parser s Unit := nodeIf .unionType do
  skipHtml
  let led ← optional typeOperator
  typeOperand sub
  let joined ← some? do
    typeOperator
    typeOperand sub
  pure (led || joined)

/-- Reads `extends` and a type without a condition, on the line of what it follows. -/
def extendsClause : Parser s Unit := do
  guard !(← lineBreak)
  keyword "extends"
  sub .typeUnion

/-- Reads a type: a union, or a union under a condition. -/
def typeExpression : Parser s Unit := nodeIf .conditionalType do
  sub .typeUnion
  if ← some? (extendsClause sub) then
    discard (optional do
      symbol "?"
      sub .type
      symbol ":"
      sub .type)
    pure true
  else pure false

end ImportAudit.Grammar.Parser
