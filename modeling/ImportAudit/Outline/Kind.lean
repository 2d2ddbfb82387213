/-
# ImportAudit.Outline.Kind — the kinds of node in the outline of a script.

An outline keeps of a script's syntax what decides whether a literal names a module: literals,
names, comments, calls with their arguments, import and export statements, and the constructs that
put an `import(...)` into a type or shield it from one.  All the other compound expressions share the
kind `expression`, and the other declarations the kind `declaration`.

Each kind has a name.  The type positions are a handful of kinds named here and every kind whose
name ends in `_type`.
-/

namespace ImportAudit.Outline

/-- The kinds of node. -/
inductive Kind
  | program
  | statementBlock
  | expressionStatement
  | declaration
  | importStatement
  | importClause
  | importAttribute
  | importRequireClause
  | exportStatement
  | exportClause
  | callExpression
  | arguments
  | expression
  | markupElement
  | object
  | importWord
  | identifier
  | number
  | regex
  | string
  | templateString
  | templateSubstitution
  | comment
  | htmlComment
  | typeQuery
  | typeAscription
  | predicateAscription
  | typeAliasDeclaration
  | typeArguments
  | optingAscription
  | omittingAscription
  | addingAscription
  | interfaceBody
  | indexTypeQuery
  | arrayType
  | conditionalType
  | constructorType
  | defaultType
  | flowMaybeType
  | functionType
  | genericType
  | inferType
  | intersectionType
  | literalType
  | lookupType
  | objectType
  | parenthesizedType
  | readonlyType
  | templateLiteralType
  | templateType
  | tupleType
  | unionType
  deriving DecidableEq, Repr

namespace Kind

/-- The name of a kind. -/
def name : Kind → String
  | program => "program"
  | statementBlock => "statement_block"
  | expressionStatement => "expression_statement"
  | declaration => "declaration"
  | importStatement => "import_statement"
  | importClause => "import_clause"
  | importAttribute => "import_attribute"
  | importRequireClause => "import_require_clause"
  | exportStatement => "export_statement"
  | exportClause => "export_clause"
  | callExpression => "call_expression"
  | arguments => "arguments"
  | expression => "expression"
  | markupElement => "jsx_element"
  | object => "object"
  | importWord => "import"
  | identifier => "identifier"
  | number => "number"
  | regex => "regex"
  | string => "string"
  | templateString => "template_string"
  | templateSubstitution => "template_substitution"
  | comment => "comment"
  | htmlComment => "html_comment"
  | typeQuery => "type_query"
  | typeAscription => "type_annotation"
  | predicateAscription => "type_predicate_annotation"
  | typeAliasDeclaration => "type_alias_declaration"
  | typeArguments => "type_arguments"
  | optingAscription => "opting_type_annotation"
  | omittingAscription => "omitting_type_annotation"
  | addingAscription => "adding_type_annotation"
  | interfaceBody => "interface_body"
  | indexTypeQuery => "index_type_query"
  | arrayType => "array_type"
  | conditionalType => "conditional_type"
  | constructorType => "constructor_type"
  | defaultType => "default_type"
  | flowMaybeType => "flow_maybe_type"
  | functionType => "function_type"
  | genericType => "generic_type"
  | inferType => "infer_type"
  | intersectionType => "intersection_type"
  | literalType => "literal_type"
  | lookupType => "lookup_type"
  | objectType => "object_type"
  | parenthesizedType => "parenthesized_type"
  | readonlyType => "readonly_type"
  | templateLiteralType => "template_literal_type"
  | templateType => "template_type"
  | tupleType => "tuple_type"
  | unionType => "union_type"

/-- The kinds of node that a single token makes, and that nothing lies below. -/
def isBare : Kind → Bool
  | identifier | number | regex | comment | htmlComment => true
  | _ => false

/-- The kinds of node that a token makes: those below which nothing lies, and the two kinds of
literal that can name a module. -/
def isToken : Kind → Bool
  | string | templateString => true
  | k => k.isBare

/-- The kinds whose name ends in `_type`. -/
def isTypeForm : Kind → Bool
  | arrayType | conditionalType | constructorType | defaultType | flowMaybeType | functionType
  | genericType | inferType | intersectionType | literalType | lookupType | objectType
  | parenthesizedType | readonlyType | templateLiteralType | templateType | tupleType
  | unionType => true
  | _ => false

/-- A kind is a type form exactly when its name ends in `_type`. -/
theorem isTypeForm_iff (k : Kind) :
    k.isTypeForm = true ↔ "_type".toList <:+ k.name.toList := by
  cases k <;> decide

/-- The kinds that put what lies below them into a type position. -/
def isTypeContext (k : Kind) : Bool :=
  match k with
  | typeQuery | typeAscription | typeAliasDeclaration | typeArguments | optingAscription
  | omittingAscription => true
  | _ => k.isTypeForm

/-- The kinds that shield what lies below them from any type position above. -/
def isScopeBoundary : Kind → Bool
  | program | statementBlock | expressionStatement => true
  | _ => false

/-- No kind both opens a type position and shields from one. -/
theorem isScopeBoundary_eq_false_of_isTypeContext {k : Kind} (h : k.isTypeContext = true) :
    k.isScopeBoundary = false := by
  cases k <;> first | rfl | cases h

end Kind

end ImportAudit.Outline
