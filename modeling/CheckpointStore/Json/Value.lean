import CheckpointStore.Json.Binary64
import CheckpointStore.Json.Entries

/-!
# Document values

Documents are JSON values. Integers stay integers, every other number is a double, and an object
holds its fields in ascending key order, each key once.
-/

namespace CheckpointStore

/-- A document value. -/
inductive Value where
  | null
  | bool (value : Bool)
  | integer (value : Int)
  | float (value : Binary64)
  | string (value : String)
  | array (items : List Value)
  | object (fields : List (String × Value))
  deriving Repr, Inhabited

/-- The fields of an object, keys ascending. -/
abbrev Fields := List (String × Value)

/-- The fields of a list of pairs; of two with one key the later stays. -/
def Fields.ofList (pairs : List (String × Value)) : Fields :=
  pairs.foldl (fun fields pair => Entries.insert pair.1 pair.2 fields) []

def Value.ofFields (pairs : List (String × Value)) : Value := .object (Fields.ofList pairs)

def Value.nat (n : Nat) : Value := .integer n

end CheckpointStore
