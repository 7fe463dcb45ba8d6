/-!
# Ordered entries

Texts with values, as a list in strictly ascending key order. The fields of an object are kept so,
since they sit inside a nested type. Texts are ordered by their characters, which is the order of
their UTF-8 bytes. Main statements: what a look-up finds after an insertion and after an erasure,
and that both keep the order.
-/

namespace CheckpointStore.Entries

variable {α : Type}

def get? (key : String) : List (String × α) → Option α
  | [] => none
  | (k, value) :: rest => if key = k then some value else get? key rest

/-- Puts a value at its place in the order, over any value the key had. -/
def insert (key : String) (value : α) : List (String × α) → List (String × α)
  | [] => [(key, value)]
  | (k, old) :: rest =>
    if key < k then (key, value) :: (k, old) :: rest
    else if key = k then (key, value) :: rest
    else (k, old) :: insert key value rest

def erase (key : String) (entries : List (String × α)) : List (String × α) :=
  entries.filter fun entry => entry.1 ≠ key

def Ascending (entries : List (String × α)) : Prop := entries.Pairwise fun a b => a.1 < b.1

theorem ascending_nil : Ascending ([] : List (String × α)) := List.Pairwise.nil

theorem ascending_erase {key : String} {entries : List (String × α)} (h : Ascending entries) :
    Ascending (erase key entries) := List.Pairwise.filter _ h

theorem mem_insert {key : String} {value : α} {entries : List (String × α)} {entry : String × α}
    (h : entry ∈ insert key value entries) : entry = (key, value) ∨ entry ∈ entries := by
  induction entries with
  | nil => simpa [insert] using h
  | cons head rest ih =>
    obtain ⟨k, old⟩ := head
    rw [insert] at h
    split at h
    · simpa using h
    · split at h
      · rcases List.mem_cons.mp h with h | h
        · exact .inl h
        · exact .inr (List.mem_cons_of_mem _ h)
      · rcases List.mem_cons.mp h with h | h
        · exact .inr (h ▸ List.mem_cons_self)
        · exact (ih h).imp id (List.mem_cons_of_mem _)

theorem ascending_insert {key : String} {value : α} {entries : List (String × α)} (h : Ascending entries) :
    Ascending (insert key value entries) := by
  induction entries with
  | nil => exact List.pairwise_singleton _ _
  | cons head rest ih =>
    obtain ⟨k, old⟩ := head
    have ⟨above, tail⟩ := List.pairwise_cons.mp h
    rw [insert]
    split
    · rename_i less
      refine List.pairwise_cons.mpr ⟨fun entry mem => ?_, h⟩
      rcases List.mem_cons.mp mem with rfl | mem
      · exact less
      · exact Std.lt_trans less (above entry mem)
    · rename_i notLess
      split
      · rename_i same
        exact List.pairwise_cons.mpr ⟨same ▸ above, tail⟩
      · rename_i different
        refine List.pairwise_cons.mpr ⟨fun entry mem => ?_, ih tail⟩
        rcases mem_insert mem with rfl | mem
        · rcases Std.lt_trichotomy k key with less | same | more
          · exact less
          · exact absurd same.symm different
          · exact absurd more notLess
        · exact above entry mem

theorem get?_insert {key other : String} {value : α} {entries : List (String × α)} :
    get? other (insert key value entries) = if other = key then some value else get? other entries := by
  induction entries with
  | nil => simp [insert, get?]
  | cons head rest ih =>
    obtain ⟨k, old⟩ := head
    rw [insert]
    split
    · simp [get?]
    · split
      · rename_i same
        subst same
        simp only [get?]
        split <;> simp_all
      · rename_i different
        simp only [get?, ih]
        by_cases h : other = k
        · subst h
          simp [Ne.symm different]
        · simp [h]

theorem get?_erase {key other : String} {entries : List (String × α)} :
    get? other (erase key entries) = if other = key then none else get? other entries := by
  induction entries with
  | nil => simp [erase, get?]
  | cons head rest ih =>
    obtain ⟨k, old⟩ := head
    simp only [erase, List.filter_cons] at ih ⊢
    by_cases same : k = key
    · subst same
      simp only [ne_eq, not_true_eq_false, decide_false, Bool.false_eq_true, if_false, ih, get?]
      by_cases h : other = k <;> simp [h]
    · simp only [ne_eq, same, not_false_eq_true, decide_true, if_true, get?, ih]
      by_cases h : other = k
      · subst h
        simp [same]
      · simp [h]

end CheckpointStore.Entries
