import CheckpointStore.Json.Token

/-!
# JSON trees

The shape of a JSON text: atoms in arrays and objects, members in the order written. A stack
machine reads the tokens one by one, so a tree is found in one pass whatever its depth.
-/

namespace CheckpointStore.Json

/-- The shape of a JSON text. -/
inductive Tree where
  | atom (value : Atom)
  | array (items : List Tree)
  | object (members : List (List Piece × Tree))
  deriving Repr, Inhabited

namespace Tree

/-- A container that is still being read; what it holds so far is reversed. -/
inductive Open where
  | array (items : List Tree)
  /-- The members before, and the key of the value being read -/
  | object (members : List (List Piece × Tree)) (key : List Piece)

/-- What may come next, and the containers around it, innermost first. -/
inductive State where
  | value (around : List Open)
  | firstItem (around : List Open)
  | firstKey (around : List Open)
  | key (members : List (List Piece × Tree)) (around : List Open)
  | colon (members : List (List Piece × Tree)) (key : List Piece) (around : List Open)
  | whole (tree : Tree) (around : List Open)

def stepValue (around : List Open) : Token → Option State
  | .atom value => some (.whole (.atom value) around)
  | .openArray => some (.firstItem around)
  | .openObject => some (.firstKey around)
  | _ => none

def step : State → Token → Option State
  | .value around, token => stepValue around token
  | .firstItem around, .closeArray => some (.whole (.array []) around)
  | .firstItem around, token => stepValue (.array [] :: around) token
  | .firstKey around, .closeObject => some (.whole (.object []) around)
  | .firstKey around, .atom (.string key) => some (.colon [] key around)
  | .key members around, .atom (.string key) => some (.colon members key around)
  | .colon members key around, .colon => some (.value (.object members key :: around))
  | .whole tree (.array items :: around), .comma => some (.value (.array (tree :: items) :: around))
  | .whole tree (.array items :: around), .closeArray => some (.whole (.array (tree :: items).reverse) around)
  | .whole tree (.object members key :: around), .comma => some (.key ((key, tree) :: members) around)
  | .whole tree (.object members key :: around), .closeObject =>
    some (.whole (.object ((key, tree) :: members).reverse) around)
  | _, _ => none

/-- The tree that the tokens spell, if they spell exactly one. -/
def ofTokens? (tokens : List Token) : Option Tree :=
  match tokens.foldlM step (.value []) with
  | some (.whole tree []) => some tree
  | _ => none

end Tree

def nesting (tokens : List Token) : Nat :=
  (tokens.foldl (fun (depth, most) token =>
    match token with
    | .openArray | .openObject => (depth + 1, max most (depth + 1))
    | .closeArray | .closeObject => (depth - 1, most)
    | _ => (depth, most)) (0, 0)).2

end CheckpointStore.Json
