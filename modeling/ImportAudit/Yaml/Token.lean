/-
# ImportAudit.Yaml.Token — the tokens of a YAML document.

Beside the marks that stand in the text there are tokens for the beginning and the end of blocks,
which are told by indentation.
-/
import ImportAudit.Text.Utf8
import ImportAudit.Yaml.Scalar

namespace ImportAudit.Yaml

/-- A tag: a handle, if it has one, and what stands behind it. -/
structure TagName where
  handle : Option String
  suffix : String
  deriving DecidableEq, Repr

/-- A directive: of a version, of a handle for tags, or of another name. -/
inductive Directive
  | version (major minor : Nat)
  | handle (name stands : String)
  | other
  deriving DecidableEq, Repr

/-- What a token is. -/
inductive Token
  | directive (d : Directive)
  | documentStart
  | documentEnd
  | sequenceStart
  | mappingStart
  | blockEnd
  | flowSequenceStart
  | flowSequenceEnd
  | flowMappingStart
  | flowMappingEnd
  | entry
  | flowEntry
  | key
  | value
  | anchor (name : String)
  | alias (name : String)
  | tag (t : TagName)
  | scalar (text : String) (plain : Bool)
  | streamEnd
  deriving DecidableEq, Repr

namespace Scan

/-! ## Anchors and tags -/

/-- Takes the name of an anchor or an alias behind its mark. -/
def anchorName : Scan String := do
  skip 1
  let name ← takeWhile isWordChar
  let c ← peek 0
  if name = [] then fail "expected alphabetic or numeric character"
  else if isBlankOrEnd c || (c.any fun c => "?:,]\x7d%@`".toList.contains c) then
    pure (String.ofList name)
  else fail "expected alphabetic or numeric character"

/-- Takes bytes that are written as two hexadecimal digits each, behind percent signs. -/
def byteEscapes : Nat → Scan (List UInt8)
  | 0 => pure []
  | fuel + 1 => do
    match (← get).rest with
    | '%' :: a :: b :: _ =>
      match hexNumber? [a, b] with
      | some n => skip 3; return n.toUInt8 :: (← byteEscapes fuel)
      | none => fail "expected URI escape sequence of 2 hexadecimal numbers"
    | '%' :: _ => fail "expected URI escape sequence of 2 hexadecimal numbers"
    | _ => pure []

/-- A character that an address may hold. -/
def isAddressChar (c : Char) : Bool :=
  c.isAlphanum || "-;/?:@&=+$,_.!~*'()[]".toList.contains c

/-- Takes an address, or the end of one. -/
def address : Nat → Scan (List Char)
  | 0 => pure []
  | fuel + 1 => do
    let cs ← takeWhile isAddressChar
    if (← peek 0) = some '%' then
      match Text.Utf8.decode (← byteEscapes ((← get).rest.length + 1)) with
      | .ok ds => return cs ++ ds ++ (← address fuel)
      | .error _ => fail "invalid bytes in an address"
    else pure cs

/-- Takes an address that is not empty. -/
def wholeAddress : Scan String := do
  match ← address ((← get).rest.length + 1) with
  | [] => fail "expected URI"
  | cs => pure (String.ofList cs)

/-- Takes a handle of tags. -/
def tagHandle : Scan String := do
  if (← peek 0) ≠ some '!' then fail "expected '!'"
  let name := (← get).rest.drop 1 |>.takeWhile isWordChar
  match (← get).rest[name.length + 1]? with
  | some '!' => skip (name.length + 2); pure (String.ofList ('!' :: name ++ ['!']))
  | next =>
    if name = [] ∧ next = some ' ' then skip 1; pure "!"
    else skip (name.length + 1); fail "expected '!'"

/-- Takes a tag. -/
def tagName : Scan TagName := do
  let rest := (← get).rest.drop 1
  let t ← do
    if rest.head? = some '<' then
      skip 2
      let suffix ← wholeAddress
      if (← peek 0) ≠ some '>' then fail "expected '>'"
      skip 1
      pure ⟨none, suffix⟩
    else if isBlankOrEnd rest.head? then skip 1; pure ⟨none, "!"⟩
    else if (rest.takeWhile fun c => !(c == ' ' || isBreak c)).contains '!' then
      let handle ← tagHandle
      pure ⟨some handle, ← wholeAddress⟩
    else skip 1; pure ⟨some "!", ← wholeAddress⟩
  if endsWord (← peek 0) then pure t
  else fail "expected ' '"

/-! ## Directives -/

/-- Takes a number. -/
def number : Scan Nat := do
  match ← takeWhile Char.isDigit with
  | [] => fail "expected a digit"
  | ds => pure (ds.foldl (fun n d => n * 10 + (d.toNat - 48)) 0)

/-- Takes a directive, the sign of which comes first. -/
def directive : Scan Directive := do
  skip 1
  let name ← takeWhile isWordChar
  if name = [] ∨ !endsWord (← peek 0) then fail "expected alphabetic or numeric character"
  let d ← do
    if name = "YAML".toList then
      let _ ← spaces
      let major ← number
      if (← peek 0) ≠ some '.' then fail "expected a digit or '.'"
      skip 1
      let minor ← number
      if !endsWord (← peek 0) then fail "expected a digit or ' '"
      pure (.version major minor)
    else if name = "TAG".toList then
      let _ ← spaces
      let handle ← tagHandle
      if (← peek 0) ≠ some ' ' then fail "expected ' '"
      let _ ← spaces
      let stands ← wholeAddress
      if !endsWord (← peek 0) then fail "expected ' '"
      pure (.handle handle stands)
    else
      let _ ← takeWhile fun c => !isBreak c
      pure .other
  commentLine
  pure d

end Scan

end ImportAudit.Yaml
