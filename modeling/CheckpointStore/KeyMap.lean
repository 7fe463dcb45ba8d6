import Std.Data.ExtTreeMap
import CheckpointStore.Bytes.Order

/-!
# Maps from keys

A finite map from keys to values, kept as a balanced tree. Two maps with the same entries are
equal, whatever the shape of their trees. Main statements: what a look-up finds after an insertion
and after an erasure, and that the entries are those that look-ups find, in ascending key order.
-/

namespace CheckpointStore

/-- A finite map from keys to values. -/
structure KeyMap (α : Type) where
  tree : Std.ExtTreeMap Bytes α Bytes.order

namespace KeyMap

variable {α : Type}

def empty : KeyMap α := ⟨∅⟩

instance : Inhabited (KeyMap α) := ⟨empty⟩

def size (map : KeyMap α) : Nat := map.tree.size

def get? (map : KeyMap α) (key : Bytes) : Option α := map.tree[key]?

def contains (map : KeyMap α) (key : Bytes) : Bool := map.tree.contains key

/-- The map with a value put under a key, over any value the key had. -/
def insert (map : KeyMap α) (key : Bytes) (value : α) : KeyMap α := ⟨map.tree.insert key value⟩

def erase (map : KeyMap α) (key : Bytes) : KeyMap α := ⟨map.tree.erase key⟩

def entries (map : KeyMap α) : List (Bytes × α) := map.tree.toList

def startingAt (map : KeyMap α) (start : Bytes) : List (Bytes × α) :=
  map.entries.filter fun entry => ¬ entry.1 < start

@[ext] theorem ext {a b : KeyMap α} (h : ∀ key, a.get? key = b.get? key) : a = b := by
  cases a; cases b
  exact congrArg mk (Std.ExtTreeMap.ext_getElem? h)

theorem entries_inj {a b : KeyMap α} : a.entries = b.entries ↔ a = b :=
  ⟨fun h => by cases a; cases b; exact congrArg mk (Std.ExtTreeMap.toList_inj.mp h), fun h => h ▸ rfl⟩

instance [DecidableEq α] : DecidableEq (KeyMap α) := fun _ _ => decidable_of_iff _ entries_inj

@[simp] theorem get?_empty (key : Bytes) : (empty : KeyMap α).get? key = none := by
  simp [empty, get?]

@[simp] theorem entries_empty : (empty : KeyMap α).entries = [] := by
  simp [empty, entries]

theorem get?_insert (map : KeyMap α) (key other : Bytes) (value : α) :
    (map.insert key value).get? other = if other = key then some value else map.get? other := by
  simp [insert, get?, Std.ExtTreeMap.getElem?_insert, @eq_comm _ other]

theorem get?_erase (map : KeyMap α) (key other : Bytes) :
    (map.erase key).get? other = if other = key then none else map.get? other := by
  simp [erase, get?, Std.ExtTreeMap.getElem?_erase, @eq_comm _ other]

theorem contains_eq (map : KeyMap α) (key : Bytes) : map.contains key = (map.get? key).isSome :=
  Std.ExtTreeMap.contains_eq_isSome_getElem?

theorem contains_eq_true_iff (map : KeyMap α) (key : Bytes) :
    map.contains key = true ↔ ∃ value, map.get? key = some value := by
  rw [contains_eq, Option.isSome_iff_exists]

theorem mem_entries_iff {map : KeyMap α} {key : Bytes} {value : α} :
    (key, value) ∈ map.entries ↔ map.get? key = some value :=
  Std.ExtTreeMap.mem_toList_iff_getElem?_eq_some

@[simp] theorem length_entries (map : KeyMap α) : map.entries.length = map.size :=
  Std.ExtTreeMap.length_toList

theorem ascending_entries (map : KeyMap α) : map.entries.Pairwise fun a b => a.1 < b.1 :=
  Std.ExtTreeMap.ordered_keys_toList.imp Bytes.order_eq_lt_iff.mp

theorem ascending_startingAt (map : KeyMap α) (start : Bytes) :
    (map.startingAt start).Pairwise fun a b => a.1 < b.1 :=
  map.ascending_entries.filter _

end KeyMap
end CheckpointStore
