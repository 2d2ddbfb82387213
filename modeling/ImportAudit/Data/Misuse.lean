/-
# ImportAudit.Data.Misuse — values used as what they are not.

Settings may hold any value.  Where one is used in a way that its type does not admit, the misuse
names the type and what was asked of it.
-/
import ImportAudit.Data.Value

namespace ImportAudit

/-- A use that the type of a value does not admit. -/
inductive Misuse
  | notIterable (type : String)
  | notContainer (type : String)
  | textIndex
  | listIndex
  | notCallable (type : String)
  | noMember (type member : String)
  | notName (type : String)
  | unhashable (type : String)
  | notPath (type : String)
  | notClass (type : String)
  | notMembers (type : String)
  | fixedMember (member owner : String)
  | notTable (type : String)
  | notIndexed (type : String)
  | notWritable (type : String)
  | notKey (type : String)
  deriving DecidableEq, Repr

namespace Misuse

/-- The name of the kind of misuse. -/
def kindName : Misuse → String
  | .noMember _ _ | .fixedMember _ _ => "AttributeError"
  | _ => "TypeError"

/-- The message of a misuse. -/
def message : Misuse → String
  | .notIterable type => "'" ++ type ++ "' object is not iterable"
  | .notContainer type => "argument of type '" ++ type ++ "' is not iterable"
  | .textIndex => "string indices must be integers, not 'str'"
  | .listIndex => "list indices must be integers or slices, not str"
  | .notCallable type => "'" ++ type ++ "' object is not callable"
  | .noMember type member => "'" ++ type ++ "' object has no attribute '" ++ member ++ "'"
  | .notName type => "attribute name must be string, not '" ++ type ++ "'"
  | .unhashable type => "unhashable type: '" ++ type ++ "'"
  | .notPath type => "expected str, bytes or os.PathLike object, not " ++ type
  | .notClass type => "__class__ must be set to a class, not '" ++ type ++ "' object"
  | .notMembers type => "__dict__ must be set to a dictionary, not a '" ++ type ++ "'"
  | .fixedMember member owner =>
    "attribute '" ++ member ++ "' of '" ++ owner ++ "' objects is not writable"
  | .notTable type => "'" ++ type ++ "' object does not support item assignment"
  | .notIndexed type => "'" ++ type ++ "' object is not subscriptable"
  | .notWritable type => "Object of type " ++ type ++ " is not JSON serializable"
  | .notKey type => "keys must be str, int, float, bool or None, not " ++ type

end Misuse

namespace Value

/-- The items that a value consists of, one after the other: those of a list, the characters of a
text, the keys of a mapping. -/
def items : Value → Except Misuse (List Value)
  | .list vs => .ok vs
  | .text s => .ok (s.toList.map fun c => .text (String.ofList [c]))
  | .mapping entries => .ok (entries.map Prod.fst)
  | v => .error (.notIterable v.fullTypeName)

end Value

end ImportAudit
