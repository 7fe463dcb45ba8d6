import CheckpointStore.Bytes.Basic

/-!
# The order of byte strings

Byte strings are compared byte by byte, a shorter one before its extensions. Main statements: the
comparison finds the lexicographic order of lists, and it is a linear order.
-/

namespace CheckpointStore.Bytes

def order : Bytes → Bytes → Ordering
  | [], [] => .eq
  | [], _ :: _ => .lt
  | _ :: _, [] => .gt
  | a :: as, b :: bs => if a < b then .lt else if b < a then .gt else order as bs

theorem order_eq_lt_iff {a b : Bytes} : order a b = .lt ↔ a < b := by
  induction a generalizing b with
  | nil => cases b <;> simp [order]
  | cons x xs ih =>
    cases b with
    | nil => simp [order]
    | cons y ys =>
      rw [order, List.cons_lt_cons_iff]
      split
      · rename_i less
        simp [less]
      · rename_i notLess
        split
        · rename_i more
          have different : x ≠ y := fun same => UInt8.lt_irrefl _ (same ▸ more)
          simp [notLess, different]
        · rename_i notMore
          have same : x = y := UInt8.le_antisymm (UInt8.not_lt.mp notMore) (UInt8.not_lt.mp notLess)
          simp [same, ih, UInt8.lt_irrefl]

theorem order_eq_eq_iff {a b : Bytes} : order a b = .eq ↔ a = b := by
  induction a generalizing b with
  | nil => cases b <;> simp [order]
  | cons x xs ih =>
    cases b with
    | nil => simp [order]
    | cons y ys =>
      rw [order]
      split
      · rename_i less
        have different : x ≠ y := fun same => UInt8.lt_irrefl _ (same ▸ less)
        simp [different]
      · rename_i notLess
        split
        · rename_i more
          have different : x ≠ y := fun same => UInt8.lt_irrefl _ (same ▸ more)
          simp [different]
        · rename_i notMore
          have same : x = y := UInt8.le_antisymm (UInt8.not_lt.mp notMore) (UInt8.not_lt.mp notLess)
          simp [same, ih]

theorem swap_order (a b : Bytes) : (order b a).swap = order a b := by
  induction a generalizing b with
  | nil => cases b <;> rfl
  | cons x xs ih =>
    cases b with
    | nil => rfl
    | cons y ys =>
      simp only [order]
      by_cases less : x < y
      · simp [less, UInt8.lt_asymm less]
      · by_cases more : y < x
        · simp [less, more]
        · simp [less, more, ih]

theorem isLE_order_iff {a b : Bytes} : (order a b).isLE = true ↔ a < b ∨ a = b := by
  rw [← order_eq_lt_iff, ← order_eq_eq_iff]
  cases order a b <;> simp

instance orientedOrder : Std.OrientedCmp order := ⟨fun {a b} => (swap_order a b).symm⟩

instance transOrder : Std.TransCmp order where
  isLE_trans := fun {a b c} first second => by
    rw [isLE_order_iff] at first second ⊢
    rcases first with first | rfl
    · rcases second with second | rfl
      · exact .inl (List.lt_trans first second)
      · exact .inl first
    · exact second

instance lawfulOrder : Std.LawfulEqCmp order where
  compare_self := order_eq_eq_iff.mpr rfl
  eq_of_compare := order_eq_eq_iff.mp

end CheckpointStore.Bytes
