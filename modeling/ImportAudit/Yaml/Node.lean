/-
# ImportAudit.Yaml.Node — the tree of a YAML document.

A node is a scalar, a sequence or a mapping, and knows its tag.  An alias stands for the node that
was given its name before.
-/
import ImportAudit.Yaml.Resolve
import ImportAudit.Yaml.Tokens

namespace ImportAudit.Yaml

/-- A node of a document. -/
inductive Node
  | scalar (tag : Tag) (text : String)
  | sequence (tag : Tag) (items : List Node)
  | mapping (tag : Tag) (entries : List (Node × Node))
  deriving Repr

/-- How far a document was read: the tokens that are left, the fault behind them, the nodes that
were named, none for those that are not complete yet, and what the handles of tags stand for. -/
structure Parsing where
  tokens : List Token
  fault : Option Fault
  anchors : List (String × Option Node) := []
  handles : List (String × String) := []

namespace Parsing

/-- A step that reads on. -/
abbrev Step := StateT Parsing (Except Fault)

/-- The handles that every document may use. -/
def commonHandles : List (String × String) := [("!", "!"), ("!!", Tag.common)]

/-- The next token. -/
def peek : Step Token := do
  let p ← get
  match p.tokens, p.fault with
  | t :: _, _ => pure t
  | [], some f => throw f
  | [], none => throw ⟨.shape, "unexpected end", 0, 0⟩

/-- Goes behind the next token. -/
def skip : Step Unit := modify fun p => { p with tokens := p.tokens.drop 1 }

/-- Goes behind the next token if it is a certain one. -/
def takes (t : Token) : Step Bool := do
  if (← peek) = t then skip; pure true
  else pure false

/-- The next token must be a certain one. -/
def expect (t : Token) (complaint : String) : Step Unit := do
  unless ← takes t do throw ⟨.shape, complaint, 0, 0⟩

/-- A node that is left out. -/
def empty : Node := .scalar .null ""

/-! ## Properties -/

/-- What stands before a node: its name and its tag. -/
structure Properties where
  anchor : Option String := none
  tag : Option String := none

/-- The name of a tag. -/
def tagName (t : TagName) : Step String := do
  match t.handle with
  | none => pure t.suffix
  | some handle =>
    match (← get).handles.lookup handle with
    | some stands => pure (stands ++ t.suffix)
    | none => throw ⟨.shape, "found undefined tag handle", 0, 0⟩

/-- Takes what stands before a node. -/
def properties : Step Properties := do
  match ← peek with
  | .anchor name =>
    skip
    match ← peek with
    | .tag t => skip; pure ⟨some name, some (← tagName t)⟩
    | _ => pure ⟨some name, none⟩
  | .tag t =>
    skip
    match ← peek with
    | .anchor name => skip; pure ⟨some name, some (← tagName t)⟩
    | _ => pure ⟨none, some (← tagName t)⟩
  | _ => pure {}

/-- Gives a name to the node that follows. -/
def announce (p : Properties) : Step Unit := do
  match p.anchor with
  | none => pure ()
  | some name =>
    if (← get).anchors.any fun a => a.1 = name then
      throw ⟨.nodes, "found duplicate anchor", 0, 0⟩
    modify fun s => { s with anchors := (name, none) :: s.anchors }

/-- The node of a name is complete. -/
def complete (p : Properties) (n : Node) : Step Node := do
  match p.anchor with
  | none => pure n
  | some name =>
    modify fun s => { s with anchors := (name, some n) :: s.anchors.filter fun a => a.1 ≠ name }
    pure n

/-- The node that an alias stands for. -/
def resolve (name : String) : Step Node := do
  match (← get).anchors.lookup name with
  | some (some n) => pure n
  | some none => throw ⟨.values, "found unconstructable recursive node", 0, 0⟩
  | none => throw ⟨.nodes, "found undefined alias", 0, 0⟩

/-- The tag of a node, by default that of its kind. -/
def tagOr (p : Properties) (t : Tag) : Tag :=
  match p.tag with
  | none | some "!" => t
  | some name => .ofName name

/-- The scalar of a text. -/
def scalar (p : Properties) (text : String) (plain : Bool) : Node :=
  let byText := if plain ∧ p.tag = none ∨ p.tag = some "!" then Plain.tagOf text else .text
  .scalar (tagOr p byText) text

/-! ## Nodes -/

mutual

/-- Takes a node; `inBlock` admits blocks, and `inMapping` entries that are not indented. -/
def node (inBlock inMapping : Bool) : Nat → Step Node
  | 0 => throw ⟨.shape, "too deep", 0, 0⟩
  | fuel + 1 => do
    match ← peek with
    | .alias name => skip; resolve name
    | _ =>
      let p ← properties
      match ← peek with
      | .scalar text plain =>
        skip
        announce p
        complete p (scalar p text plain)
      | .flowSequenceStart =>
        announce p
        skip
        complete p (.sequence (tagOr p .sequence) (← flowItems true fuel))
      | .flowMappingStart =>
        announce p
        skip
        complete p (.mapping (tagOr p .mapping) (← flowEntries true fuel))
      | t =>
        if inMapping ∧ t = .entry then
          announce p
          complete p (.sequence (tagOr p .sequence) (← looseItems fuel))
        else if inBlock ∧ t = .sequenceStart then
          announce p
          skip
          complete p (.sequence (tagOr p .sequence) (← blockItems fuel))
        else if inBlock ∧ t = .mappingStart then
          announce p
          skip
          complete p (.mapping (tagOr p .mapping) (← blockEntries fuel))
        else if p.anchor.isSome ∨ p.tag.isSome then
          announce p
          complete p (scalar p "" (p.tag = none))
        else throw ⟨.shape, "expected the node content", 0, 0⟩

/-- Takes a node unless one of some tokens follows. -/
def nodeUnless (stops : List Token) (inBlock inMapping : Bool) : Nat → Step Node
  | 0 => throw ⟨.shape, "too deep", 0, 0⟩
  | fuel + 1 => do
    if stops.contains (← peek) then pure empty
    else node inBlock inMapping fuel

/-- Takes the items of a sequence in a block of its own. -/
def blockItems : Nat → Step (List Node)
  | 0 => throw ⟨.shape, "too deep", 0, 0⟩
  | fuel + 1 => do
    if ← takes .entry then
      let n ← nodeUnless [.entry, .blockEnd] true false fuel
      return n :: (← blockItems fuel)
    expect .blockEnd "expected <block end>"
    pure []

/-- Takes the items of a sequence that is indented no further than what is around it. -/
def looseItems : Nat → Step (List Node)
  | 0 => throw ⟨.shape, "too deep", 0, 0⟩
  | fuel + 1 => do
    if ← takes .entry then
      let n ← nodeUnless [.entry, .key, .value, .blockEnd] true false fuel
      return n :: (← looseItems fuel)
    pure []

/-- Takes the value of an entry, which may be left out. -/
def entryValue (stops : List Token) (inBlock : Bool) : Nat → Step Node
  | 0 => throw ⟨.shape, "too deep", 0, 0⟩
  | fuel + 1 => do
    if ← takes .value then nodeUnless stops inBlock inBlock fuel
    else pure empty

/-- Takes the entries of a mapping in a block of its own. -/
def blockEntries : Nat → Step (List (Node × Node))
  | 0 => throw ⟨.shape, "too deep", 0, 0⟩
  | fuel + 1 => do
    let stops : List Token := [.key, .value, .blockEnd]
    if ← takes .key then
      let k ← nodeUnless stops true true fuel
      let v ← entryValue stops true fuel
      return (k, v) :: (← blockEntries fuel)
    expect .blockEnd "expected <block end>"
    pure []

/-- Takes the items of a sequence in brackets. -/
def flowItems (first : Bool) : Nat → Step (List Node)
  | 0 => throw ⟨.shape, "too deep", 0, 0⟩
  | fuel + 1 => do
    if ← takes .flowSequenceEnd then return []
    unless first do expect .flowEntry "expected ',' or ']'"
    if ← takes .key then
      let k ← nodeUnless [.value, .flowEntry, .flowSequenceEnd] false false fuel
      let v ← entryValue [.flowEntry, .flowSequenceEnd] false fuel
      return .mapping .mapping [(k, v)] :: (← flowItems false fuel)
    if ← takes .flowSequenceEnd then return []
    let n ← node false false fuel
    return n :: (← flowItems false fuel)

/-- Takes the entries of a mapping in braces. -/
def flowEntries (first : Bool) : Nat → Step (List (Node × Node))
  | 0 => throw ⟨.shape, "too deep", 0, 0⟩
  | fuel + 1 => do
    if ← takes .flowMappingEnd then return []
    unless first do expect .flowEntry "expected ',' or a brace"
    if ← takes .key then
      let k ← nodeUnless [.value, .flowEntry, .flowMappingEnd] false false fuel
      let v ← entryValue [.flowEntry, .flowMappingEnd] false fuel
      return (k, v) :: (← flowEntries false fuel)
    if ← takes .flowMappingEnd then return []
    let n ← node false false fuel
    return (n, empty) :: (← flowEntries false fuel)

end

/-! ## Documents -/

/-- Takes directives. -/
def directives (version : Bool) : Nat → Step Unit
  | 0 => pure ()
  | fuel + 1 => do
    match ← peek with
    | .directive (.version major _) =>
      if version then throw ⟨.shape, "found duplicate YAML directive", 0, 0⟩
      if major ≠ 1 then throw ⟨.shape, "found incompatible YAML document", 0, 0⟩
      skip
      directives true fuel
    | .directive (.handle name stands) =>
      if (← get).handles.any fun h => h.1 = name then
        throw ⟨.shape, "duplicate tag handle", 0, 0⟩
      modify fun p => { p with handles := p.handles ++ [(name, stands)] }
      skip
      directives version fuel
    | .directive .other => skip; directives version fuel
    | _ => pure ()

/-- Takes marks that end a document. -/
def documentEnds : Nat → Step Unit
  | 0 => pure ()
  | fuel + 1 => do if ← takes .documentEnd then documentEnds fuel

/-- Takes what comes before a document: whether there is one. -/
def documentStart (first : Bool) (fuel : Nat) : Step Bool := do
  let implicit := match ← peek with
    | .directive _ | .documentStart | .streamEnd => false
    | _ => first
  if implicit then modify fun p => { p with handles := commonHandles }; return true
  documentEnds fuel
  if ← takes .streamEnd then return false
  modify fun p => { p with handles := [] }
  directives false fuel
  modify fun p =>
    { p with handles := p.handles ++ commonHandles.filter fun h =>
        !p.handles.any fun k => k.1 = h.1 }
  expect .documentStart "expected '<document start>'"
  return true

/-- Takes the only document of a text, if it has one. -/
def document (fuel : Nat) : Step (Option Node) := do
  let implicit := match ← peek with
    | .directive _ | .documentStart | .streamEnd => false
    | _ => true
  unless ← documentStart true fuel do return none
  let n ← match ← peek with
    | .directive _ | .documentStart | .documentEnd | .streamEnd =>
      if implicit then node true false fuel else pure empty
    | _ => node true false fuel
  let _ ← takes .documentEnd
  modify fun p => { p with anchors := [] }
  if ← documentStart false fuel then throw ⟨.nodes, "expected a single document", 0, 0⟩
  return some n

end Parsing

namespace Node

/-- The tree of the only document of a text, if it has one. -/
def ofText (text : List Char) : Except Fault (Option Node) :=
  let (tokens, fault) := Lexing.tokensOf text
  match Parsing.document (4 * tokens.length + 8) { tokens, fault } with
  | .ok (n, _) => .ok n
  | .error f => .error f

end Node

end ImportAudit.Yaml
