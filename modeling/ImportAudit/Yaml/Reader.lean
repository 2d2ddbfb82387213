/-
# ImportAudit.Yaml.Reader — the value that a YAML text stands for.

Every node becomes a value by its tag.  A mapping may take in the entries of others, which its own
entries outrank.
-/
import ImportAudit.Yaml.Node
import ImportAudit.Yaml.Number

namespace ImportAudit.Yaml

/-- A fault of a value. -/
def valueFault {α : Type} (complaint : String) : Except Fault α :=
  .error ⟨.values, complaint, 0, 0⟩

/-! ## Scalars -/

/-- The value of a scalar. -/
def scalarValue (tag : Tag) (text : String) : Except Fault Value :=
  match tag with
  | .null => .ok .null
  | .bool =>
    let name := String.ofList (text.toList.map Char.toLower)
    if ["yes", "true", "on"].contains name then .ok (.bool true)
    else if ["no", "false", "off"].contains name then .ok (.bool false)
    else .error ⟨.name, name, 0, 0⟩
  | .int => (Plain.intOf text).map .int
  | .float => (Plain.floatOf text).map .float
  | .timestamp =>
    match Plain.momentOf? text.toList with
    | some m => Plain.dateValue m
    | none => .error ⟨.form, "'NoneType' object has no attribute 'groupdict'", 0, 0⟩
  | .text => .ok (.text text)
  | .sequence | .omap | .pairs => valueFault "expected a sequence node"
  | .mapping | .set => valueFault "expected a mapping node"
  | .binary | .merge | .value | .other _ =>
    valueFault "could not determine a constructor for the tag"

/-! ## Merging -/

/-- The tag of a node. -/
def Node.tag : Node → Tag
  | .scalar t _ | .sequence t _ | .mapping t _ => t

/-- The entries of a mapping behind those that it takes in. -/
def mergedEntries : Nat → List (Node × Node) → Except Fault (List (Node × Node))
  | 0, es => .ok es
  | fuel + 1, es => do
    let mut taken := []
    let mut own := []
    for e in es do
      if e.1.tag = .merge then
        match e.2 with
        | .mapping _ inner => taken := taken ++ (← mergedEntries fuel inner)
        | .sequence _ items =>
          let mut all := []
          for n in items do
            match n with
            | .mapping _ inner => all := (← mergedEntries fuel inner) ++ all
            | _ => valueFault "expected a mapping for merging"
          taken := taken ++ all
        | _ => valueFault "expected a mapping or list of mappings for merging"
      else
        match e.1 with
        | .scalar .value text => own := own ++ [(.scalar .text text, e.2)]
        | _ => own := own ++ [e]
    pure (taken ++ own)

/-! ## Nodes -/

/-- A key must not be a list or a mapping. -/
def keyValue (v : Value) : Except Fault Value :=
  match v with
  | .list _ | .mapping _ => valueFault "found unhashable key"
  | v => .ok v

mutual

/-- The value of a node; `fuel` bounds its depth. -/
def Node.value : Nat → Node → Except Fault Value
  | 0, _ => valueFault "too deep"
  | _ + 1, .scalar tag text => scalarValue tag text
  | fuel + 1, .sequence tag items =>
    match tag with
    | .sequence => do return .list (← itemValues fuel items)
    | .omap | .pairs => do return .list (← pairValues fuel items)
    | .mapping | .set => valueFault "expected a mapping node"
    | .merge | .value | .other _ => valueFault "could not determine a constructor for the tag"
    | _ => valueFault "expected a scalar node"
  | fuel + 1, .mapping tag entries =>
    match tag with
    | .mapping => do
      return .mapping (Value.insertAll (← entryValues fuel (← mergedEntries fuel entries)))
    | .set => do
      let es ← entryValues fuel (← mergedEntries fuel entries)
      return .list ((Value.insertAll es).map Prod.fst)
    | .sequence | .omap | .pairs => valueFault "expected a sequence node"
    | .merge | .value | .other _ => valueFault "could not determine a constructor for the tag"
    | _ =>
      match entries.find? fun e => e.1.tag = .value with
      | some (_, .scalar _ text) => scalarValue tag text
      | _ => valueFault "expected a scalar node"

/-- The values of nodes. -/
def itemValues : Nat → List Node → Except Fault (List Value)
  | 0, _ => valueFault "too deep"
  | _ + 1, [] => .ok []
  | fuel + 1, n :: ns => do return (← n.value fuel) :: (← itemValues fuel ns)

/-- The keys and values of mappings with one entry each. -/
def pairValues : Nat → List Node → Except Fault (List Value)
  | 0, _ => valueFault "too deep"
  | _ + 1, [] => .ok []
  | fuel + 1, n :: ns => do
    match n with
    | .mapping _ [(k, v)] =>
      let pair := Value.list [← k.value fuel, ← v.value fuel]
      return pair :: (← pairValues fuel ns)
    | .mapping _ _ => valueFault "expected a single mapping item"
    | _ => valueFault "expected a mapping of length 1"

/-- The keys and values of entries. -/
def entryValues : Nat → List (Node × Node) → Except Fault (List (Value × Value))
  | 0, _ => valueFault "too deep"
  | _ + 1, [] => .ok []
  | fuel + 1, (k, v) :: es => do
    let key ← keyValue (← k.value fuel)
    return (key, ← v.value fuel) :: (← entryValues fuel es)

end

/-! ## Texts -/

/-- A character that a document may hold. -/
def isAllowed (c : Char) : Bool :=
  let n := c.toNat
  n == 0x09 || n == 0x0A || n == 0x0D || (0x20 ≤ n && n ≤ 0x7E) || n == 0x85 ||
    (0xA0 ≤ n && n ≤ 0xD7FF) || (0xE000 ≤ n && n ≤ 0xFFFD) || 0x10000 ≤ n

/-- The value of a text, null if it holds no document. -/
def read (text : List Char) : Except Fault Value :=
  if !text.all isAllowed then .error ⟨.characters, "special characters are not allowed", 0, 0⟩
  else
    match Node.ofText text with
    | .error f => .error f
    | .ok none => .ok .null
    | .ok (some n) => n.value (16 * (text.length + 1) * (text.length + 1))

end ImportAudit.Yaml
