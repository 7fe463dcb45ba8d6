import CheckpointStore.Handle.Read
import CheckpointStore.Proofs.Reading

/-!
# Merged entries

Two ascending lists of entries merge into an ascending list that holds, for every key, what the
two lists' values for it come to.
-/

namespace CheckpointStore

/-- Entries with keys that go strictly upward. -/
def Ascending {α : Type} (entries : List (Bytes × α)) : Prop := entries.Pairwise fun a b => a.1 < b.1

theorem Bytes.lt_of_not_lt {a b : Bytes} (notLess : ¬ a < b) (different : a ≠ b) : b < a := by
  rw [← Bytes.order_eq_lt_iff, ← Bytes.swap_order] at notLess
  rw [ne_comm, ne_eq, ← Bytes.order_eq_eq_iff] at different
  rw [← Bytes.order_eq_lt_iff]
  cases found : Bytes.order b a with
  | lt => rfl
  | eq => exact absurd found different
  | gt => exact absurd (congrArg Ordering.swap found) notLess

namespace Ascending

variable {α : Type} {entries : List (Bytes × α)} {key : Bytes} {value : α}

theorem lookup_cons_of_ne {first : Bytes} (different : key ≠ first) :
    ((first, value) :: entries).lookup key = entries.lookup key := by
  rw [List.lookup_cons, beq_false_of_ne different]

theorem lookup_eq_none (above : ∀ entry ∈ entries, key < entry.1) : entries.lookup key = none := by
  refine List.lookup_eq_none_iff.mpr ?_
  intro entry mem
  have different : key ≠ entry.1 := fun same => List.lt_irrefl entry.1 (same ▸ above entry mem)
  simpa using different

theorem lookup_eq_some_iff (ascending : Ascending entries) :
    entries.lookup key = some value ↔ (key, value) ∈ entries := by
  induction entries with
  | nil => simp
  | cons entry rest ih =>
    obtain ⟨first, head⟩ := entry
    obtain ⟨above, later⟩ := List.pairwise_cons.mp ascending
    rw [List.mem_cons, Prod.mk.injEq]
    by_cases same : key = first
    · subst same
      rw [List.lookup_cons_self]
      have fresh : (key, value) ∉ rest := fun mem => List.lt_irrefl key (above _ mem)
      simp [fresh, eq_comm]
    · rw [lookup_cons_of_ne same]
      simp only [ih later, same, false_and, false_or]

theorem nodup_keys (ascending : Ascending entries) : (entries.map Prod.fst).Nodup := by
  refine List.pairwise_map.mpr (List.Pairwise.imp ?_ ascending)
  intro a b less same
  rw [same] at less
  exact List.lt_irrefl b.1 less

theorem eq_of_mem_iff {other : List (Bytes × α)} (first : Ascending entries) (second : Ascending other)
    (same : ∀ key value, (key, value) ∈ entries ↔ (key, value) ∈ other) : entries = other := by
  have permuted : entries.Perm other :=
    (List.perm_ext_iff_of_nodup first.nodup_keys.of_map second.nodup_keys.of_map).mpr
      fun entry => same entry.1 entry.2
  exact permuted.eq_of_pairwise (fun a b _ _ up down => absurd (List.lt_trans up down) (List.lt_irrefl _))
    first second

end Ascending

section Merged

variable {α β γ : Type} {left : α → Option β → Option γ} {right : β → γ}

/-- What two values of one key come to, of which either may be missing. -/
def merged (left : α → Option β → Option γ) (right : β → γ) : Option α → Option β → Option γ
  | some a, b => left a b
  | none, b => b.map right

theorem key_of_mem_mergeEntries {as : List (Bytes × α)} {bs : List (Bytes × β)} {key : Bytes} {value : γ}
    (mem : (key, value) ∈ mergeEntries left right as bs) : (∃ a, (key, a) ∈ as) ∨ ∃ b, (key, b) ∈ bs := by
  fun_induction mergeEntries left right as bs with
  | case1 rest =>
    obtain ⟨⟨first, b⟩, found, same⟩ := List.mem_map.mp mem
    obtain ⟨rfl, -⟩ := Prod.mk.inj same
    exact .inr ⟨b, found⟩
  | case2 rest filled =>
    obtain ⟨⟨first, a⟩, found, same⟩ := List.mem_filterMap.mp mem
    obtain ⟨c, -, pair⟩ := Option.map_eq_some_iff.mp same
    obtain ⟨rfl, -⟩ := Prod.mk.inj pair
    exact .inl ⟨a, found⟩
  | case3 k a as l b bs less c kept ih => grind
  | case4 k a as l b bs less dropped ih => grind
  | case5 a as k b bs c kept irreflexive ih => grind
  | case6 a as k b bs dropped irreflexive ih => grind
  | case7 k a as l b bs more different ih => grind

theorem above_mergeEntries {as : List (Bytes × α)} {bs : List (Bytes × β)} {key : Bytes}
    (first : ∀ entry ∈ as, key < entry.1) (second : ∀ entry ∈ bs, key < entry.1) :
    ∀ entry ∈ mergeEntries left right as bs, key < entry.1 := by
  intro entry mem
  rcases key_of_mem_mergeEntries mem with ⟨a, found⟩ | ⟨b, found⟩
  · exact first _ found
  · exact second _ found

theorem not_mem_mergeEntries {as : List (Bytes × α)} {bs : List (Bytes × β)} {key : Bytes}
    (first : ∀ entry ∈ as, key < entry.1) (second : ∀ entry ∈ bs, key < entry.1) (value : γ) :
    (key, value) ∉ mergeEntries left right as bs :=
  fun mem => List.lt_irrefl key (above_mergeEntries first second _ mem)

theorem below_cons {k l : Bytes} {b : β} {bs : List (Bytes × β)} (less : k < l) (second : Ascending ((l, b) :: bs)) :
    ∀ entry ∈ (l, b) :: bs, k < entry.1 := by
  intro entry mem
  rcases List.mem_cons.mp mem with rfl | mem
  · exact less
  · exact List.lt_trans less ((List.pairwise_cons.mp second).1 entry mem)

theorem mem_filterMap_iff {as : List (Bytes × α)} (first : Ascending as) {key : Bytes} {value : γ} :
    (key, value) ∈ as.filterMap (fun (key, a) => (left a none).map (key, ·)) ↔
      merged left right (as.lookup key) none = some value := by
  cases found : as.lookup key with
  | none =>
    have absent : ∀ a, (key, a) ∉ as := by
      intro a mem
      rw [first.lookup_eq_some_iff.mpr mem] at found
      contradiction
    simp [merged]
    grind
  | some a =>
    have mem := first.lookup_eq_some_iff.mp found
    have unique : ∀ other, (key, other) ∈ as → other = a := by
      intro other here
      rw [first.lookup_eq_some_iff.mpr here] at found
      exact Option.some.inj found
    simp [merged]
    grind

/-- A merge holds for every key what the lists' values for it come to. -/
theorem mem_mergeEntries_iff {as : List (Bytes × α)} {bs : List (Bytes × β)} (first : Ascending as)
    (second : Ascending bs) {key : Bytes} {value : γ} :
    (key, value) ∈ mergeEntries left right as bs ↔ merged left right (as.lookup key) (bs.lookup key) = some value := by
  fun_induction mergeEntries left right as bs with
  | case1 rest =>
    simp only [List.lookup_nil, merged, Option.map_eq_some_iff, second.lookup_eq_some_iff, List.mem_map,
      Prod.exists, Prod.mk.injEq]
    grind
  | case2 rest filled => exact mem_filterMap_iff first
  | case3 k a as l b bs less c kept ih =>
    obtain ⟨above, later⟩ := List.pairwise_cons.mp first
    have below := below_cons less second
    by_cases same : key = k
    · subst same
      rw [List.lookup_cons_self, Ascending.lookup_eq_none below]
      simp [merged, kept, not_mem_mergeEntries above below, eq_comm]
    · rw [List.mem_cons, ih later second, Ascending.lookup_cons_of_ne same]
      simp [same]
  | case4 k a as l b bs less dropped ih =>
    obtain ⟨above, later⟩ := List.pairwise_cons.mp first
    have below := below_cons less second
    by_cases same : key = k
    · subst same
      rw [List.lookup_cons_self, Ascending.lookup_eq_none below]
      simp [merged, dropped, not_mem_mergeEntries above below]
    · rw [ih later second, Ascending.lookup_cons_of_ne same]
  | case5 a as k b bs c kept irreflexive ih =>
    obtain ⟨above, later⟩ := List.pairwise_cons.mp first
    obtain ⟨below, rest⟩ := List.pairwise_cons.mp second
    by_cases same : key = k
    · subst same
      rw [List.lookup_cons_self, List.lookup_cons_self]
      simp [merged, kept, not_mem_mergeEntries above below, eq_comm]
    · rw [List.mem_cons, ih later rest, Ascending.lookup_cons_of_ne same, Ascending.lookup_cons_of_ne same]
      simp [same]
  | case6 a as k b bs dropped irreflexive ih =>
    obtain ⟨above, later⟩ := List.pairwise_cons.mp first
    obtain ⟨below, rest⟩ := List.pairwise_cons.mp second
    by_cases same : key = k
    · subst same
      rw [List.lookup_cons_self, List.lookup_cons_self]
      simp [merged, dropped, not_mem_mergeEntries above below]
    · rw [ih later rest, Ascending.lookup_cons_of_ne same, Ascending.lookup_cons_of_ne same]
  | case7 k a as l b bs more different ih =>
    obtain ⟨below, rest⟩ := List.pairwise_cons.mp second
    have less := Bytes.lt_of_not_lt more different
    have above := below_cons less first
    by_cases same : key = l
    · subst same
      rw [List.lookup_cons_self, Ascending.lookup_eq_none above]
      simp [merged, not_mem_mergeEntries above below, eq_comm]
    · rw [List.mem_cons, ih first rest, Ascending.lookup_cons_of_ne same]
      simp [same]

/-- A merge of ascending lists goes strictly upward. -/
theorem ascending_mergeEntries {as : List (Bytes × α)} {bs : List (Bytes × β)} (first : Ascending as)
    (second : Ascending bs) : Ascending (mergeEntries left right as bs) := by
  fun_induction mergeEntries left right as bs with
  | case1 rest => exact List.pairwise_map.mpr second
  | case2 rest filled =>
    refine List.Pairwise.filterMap _ ?_ first
    intro a b less c fromA d fromB
    obtain ⟨_, -, rfl⟩ := Option.map_eq_some_iff.mp fromA
    obtain ⟨_, -, rfl⟩ := Option.map_eq_some_iff.mp fromB
    exact less
  | case3 k a as l b bs less c kept ih =>
    obtain ⟨above, later⟩ := List.pairwise_cons.mp first
    exact List.pairwise_cons.mpr ⟨above_mergeEntries above (below_cons less second), ih later second⟩
  | case4 k a as l b bs less dropped ih => exact ih (List.pairwise_cons.mp first).2 second
  | case5 a as k b bs c kept irreflexive ih =>
    obtain ⟨above, later⟩ := List.pairwise_cons.mp first
    obtain ⟨below, rest⟩ := List.pairwise_cons.mp second
    exact List.pairwise_cons.mpr ⟨above_mergeEntries above below, ih later rest⟩
  | case6 a as k b bs dropped irreflexive ih =>
    exact ih (List.pairwise_cons.mp first).2 (List.pairwise_cons.mp second).2
  | case7 k a as l b bs more different ih =>
    obtain ⟨below, rest⟩ := List.pairwise_cons.mp second
    have above := below_cons (Bytes.lt_of_not_lt more different) first
    exact List.pairwise_cons.mpr ⟨above_mergeEntries above below, ih first rest⟩

end Merged
end CheckpointStore
