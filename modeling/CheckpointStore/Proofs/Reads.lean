import Mathlib.Data.Finset.Card
import CheckpointStore.Proofs.Merges

/-!
# What a handle reads

Every way of reading agrees with looking keys up one by one: the documents are the keys that a
look-up finds, in ascending order, and their number is counted right. This holds as long as
nothing is staged that hides or edits a document which is not there.
-/

namespace CheckpointStore

namespace KeyMap

variable {α : Type} (map : KeyMap α)

theorem lookup_startingAt (start key : Bytes) :
    (map.startingAt start).lookup key = if key < start then none else map.get? key := by
  apply Option.ext
  intro value
  rw [Ascending.lookup_eq_some_iff (map.ascending_startingAt start), startingAt, List.mem_filter, mem_entries_iff]
  by_cases before : key < start
  · simp [before]
  · simp [before]

def keys : Finset Bytes := (map.entries.map Prod.fst).toFinset

theorem mem_keys_iff {key : Bytes} : key ∈ map.keys ↔ map.contains key = true := by
  simp [keys, contains_eq_true_iff, mem_entries_iff]

theorem card_keys : map.keys.card = map.size := by
  rw [keys, List.toFinset_card_of_nodup (Ascending.nodup_keys map.ascending_entries), List.length_map, length_entries]

theorem countP_entries (p : Bytes × α → Bool) :
    map.entries.countP p = ((map.entries.filter p).map Prod.fst).toFinset.card := by
  have ascending : Ascending (map.entries.filter p) := map.ascending_entries.filter p
  rw [List.toFinset_card_of_nodup ascending.nodup_keys, List.length_map, List.countP_eq_length_filter]

end KeyMap

namespace Handle

/-- Only committed keys have a staged change that gives no document of its own. -/
def Sound (handle : Handle) : Prop :=
  ∀ key pending, handle.staged.get? key = some pending → pending.written?.join = none →
    handle.index.contains key = true

variable {handle : Handle}

theorem index_contains_iff {key : Bytes} :
    handle.index.contains key = true ↔ ∃ value, handle.committed? key = some value := by
  simp [LiveIndex.contains, committed?, LiveIndex.get?, KeyMap.contains_eq_true_iff]

theorem Sound.of_staged_empty (empty : handle.staged = KeyMap.empty) : handle.Sound := by
  intro key pending staged
  simp [empty] at staged

theorem get?_of_written {key : Bytes} {pending : Pending} {value : Option Bytes}
    (staged : handle.staged.get? key = some pending) (written : pending.written? = some value) :
    handle.get? key = value := by
  unfold get?
  rw [staged]
  cases pending with
  | removed => exact Option.some.inj written
  | value bytes => exact Option.some.inj written
  | editable document =>
    cases changed : document.changed with
    | true => simpa [Pending.written?, changed] using written
    | false => simp [Pending.written?, changed] at written

theorem get?_of_unwritten {key : Bytes}
    (unwritten : ∀ pending, handle.staged.get? key = some pending → pending.written? = none) :
    handle.get? key = handle.committed? key := by
  unfold get?
  cases staged : handle.staged.get? key with
  | none => rfl
  | some pending =>
    have bare := unwritten pending staged
    cases pending with
    | removed => contradiction
    | value bytes => contradiction
    | editable document =>
      have unchanged : document.changed = false := by simpa [Pending.written?] using bare
      simp [unchanged]

theorem Sound.merged_eq_get? (sound : handle.Sound) (key : Bytes) :
    merged (overlay handle.image) (fun entry => entry.value handle.image) (handle.staged.get? key)
      (handle.index.entries.get? key) = handle.get? key := by
  unfold get? committed? LiveIndex.get?
  cases staged : handle.staged.get? key with
  | none => rfl
  | some pending =>
    cases pending with
    | removed => rfl
    | value bytes => rfl
    | editable document =>
      have committed := sound key _ staged
      cases changed : document.changed with
      | true => cases found : handle.index.entries.get? key <;> simp [merged, overlay, changed]
      | false =>
        have here := committed (by simp [Pending.written?, changed])
        rw [LiveIndex.contains, KeyMap.contains_eq_true_iff] at here
        obtain ⟨entry, found⟩ := here
        simp [merged, overlay, changed, found]

theorem mem_documentsFrom_iff (sound : handle.Sound) {start key value : Bytes} :
    (key, value) ∈ handle.documentsFrom start ↔ ¬ key < start ∧ handle.get? key = some value := by
  unfold documentsFrom
  rw [mem_mergeEntries_iff (handle.staged.ascending_startingAt start) (handle.index.entries.ascending_startingAt start),
    KeyMap.lookup_startingAt, KeyMap.lookup_startingAt]
  by_cases before : key < start
  · simp [before, merged]
  · simp only [before, if_false, not_false_eq_true, true_and]
    rw [sound.merged_eq_get?]

theorem ascending_documentsFrom (start : Bytes) : Ascending (handle.documentsFrom start) :=
  ascending_mergeEntries (handle.staged.ascending_startingAt start) (handle.index.entries.ascending_startingAt start)

theorem contains_eq (sound : handle.Sound) (key : Bytes) : handle.contains key = (handle.get? key).isSome := by
  have committed : handle.index.contains key = (handle.committed? key).isSome := by
    simp [LiveIndex.contains, committed?, LiveIndex.get?, KeyMap.contains_eq]
  unfold contains get?
  cases staged : handle.staged.get? key with
  | none => exact committed
  | some pending =>
    cases pending with
    | removed => rfl
    | value bytes => rfl
    | editable document =>
      cases changed : document.changed with
      | true => simp [changed]
      | false =>
        have here := sound key _ staged (by simp [Pending.written?, changed])
        simp [changed, ← committed, here]

theorem mem_documents_iff (sound : handle.Sound) {key value : Bytes} :
    (key, value) ∈ handle.documents ↔ handle.get? key = some value := by
  rw [documents, mem_documentsFrom_iff sound]
  simp

theorem ascending_documents : Ascending handle.documents := ascending_documentsFrom []

def addedKeys (handle : Handle) : Finset Bytes :=
  ((handle.staged.entries.filter fun (key, pending) =>
    match pending with
    | .removed => false
    | _ => !handle.index.contains key).map Prod.fst).toFinset

def removedKeys (handle : Handle) : Finset Bytes :=
  ((handle.staged.entries.filter fun (key, pending) =>
    match pending with
    | .removed => handle.index.contains key
    | _ => false).map Prod.fst).toFinset

theorem mem_addedKeys_iff {key : Bytes} :
    key ∈ handle.addedKeys ↔ handle.contains key = true ∧ handle.index.contains key = false := by
  simp only [addedKeys, List.mem_toFinset, List.mem_map, List.mem_filter, Prod.exists, exists_and_right,
    exists_eq_right, KeyMap.mem_entries_iff]
  unfold contains
  cases staged : handle.staged.get? key with
  | none => simp
  | some pending => cases pending <;> simp

theorem mem_removedKeys_iff {key : Bytes} :
    key ∈ handle.removedKeys ↔ handle.contains key = false ∧ handle.index.contains key = true := by
  simp only [removedKeys, List.mem_toFinset, List.mem_map, List.mem_filter, Prod.exists, exists_and_right,
    exists_eq_right, KeyMap.mem_entries_iff]
  unfold contains
  cases staged : handle.staged.get? key with
  | none => simp
  | some pending => cases pending <;> simp

/-- Handles on one index that contain the same keys have equally many documents. -/
theorem size_of_contains {other : Handle} (index : other.index = handle.index)
    (same : ∀ key, other.contains key = handle.contains key) : other.size = handle.size := by
  have added : other.addedKeys = handle.addedKeys := by
    ext key
    rw [mem_addedKeys_iff, mem_addedKeys_iff, same, index]
  have removed : other.removedKeys = handle.removedKeys := by
    ext key
    rw [mem_removedKeys_iff, mem_removedKeys_iff, same, index]
  have grown : other.added = handle.added :=
    (KeyMap.countP_entries _ _).trans ((congrArg Finset.card added).trans (KeyMap.countP_entries _ _).symm)
  have shrunk : other.removed = handle.removed :=
    (KeyMap.countP_entries _ _).trans ((congrArg Finset.card removed).trans (KeyMap.countP_entries _ _).symm)
  rw [size, size, index, grown, shrunk]

/-- The number of documents is that of the committed keys, with those added and without those removed. -/
theorem size_eq_length_documents (sound : handle.Sound) : handle.size = handle.documents.length := by
  have added : handle.added = handle.addedKeys.card := KeyMap.countP_entries _ _
  have removed : handle.removed = handle.removedKeys.card := KeyMap.countP_entries _ _
  have committed : handle.index.size = handle.index.entries.keys.card := (KeyMap.card_keys _).symm
  have listed : handle.documents.length = ((handle.documents.map Prod.fst).toFinset).card := by
    rw [List.toFinset_card_of_nodup ascending_documents.nodup_keys, List.length_map]
  have live : (handle.documents.map Prod.fst).toFinset
      = (handle.index.entries.keys ∪ handle.addedKeys) \ handle.removedKeys := by
    ext key
    rw [Finset.mem_sdiff, Finset.mem_union, KeyMap.mem_keys_iff, mem_addedKeys_iff, mem_removedKeys_iff]
    have found : key ∈ (handle.documents.map Prod.fst).toFinset ↔ handle.contains key = true := by
      simp [mem_documents_iff sound, contains_eq sound, Option.isSome_iff_exists]
    rw [found]
    show _ ↔ (handle.index.contains key = true ∨ _) ∧ _
    cases handle.contains key <;> cases handle.index.contains key <;> simp
  have apart : Disjoint handle.index.entries.keys handle.addedKeys := by
    apply Finset.disjoint_left.mpr
    intro key here fresh
    have absent : handle.index.entries.contains key = false := (mem_addedKeys_iff.mp fresh).2
    rw [KeyMap.mem_keys_iff, absent] at here
    contradiction
  have within : handle.removedKeys ⊆ handle.index.entries.keys ∪ handle.addedKeys := by
    intro key gone
    exact Finset.mem_union_left _ ((KeyMap.mem_keys_iff _).mpr (mem_removedKeys_iff.mp gone).2)
  rw [listed, live, Finset.card_sdiff_of_subset within, Finset.card_union_of_disjoint apart, size, added, removed,
    committed]

theorem documentsFrom_congr {other : Handle} (sound : handle.Sound) (alike : other.Sound)
    (same : ∀ key, handle.get? key = other.get? key) (start : Bytes) :
    handle.documentsFrom start = other.documentsFrom start := by
  refine (ascending_documentsFrom start).eq_of_mem_iff (ascending_documentsFrom start) ?_
  intro key value
  rw [mem_documentsFrom_iff sound, mem_documentsFrom_iff alike, same]

theorem contains_congr {other : Handle} (sound : handle.Sound) (alike : other.Sound)
    (same : ∀ key, handle.get? key = other.get? key) (key : Bytes) : handle.contains key = other.contains key := by
  rw [contains_eq sound, contains_eq alike, same]

theorem size_congr {other : Handle} (sound : handle.Sound) (alike : other.Sound)
    (same : ∀ key, handle.get? key = other.get? key) : handle.size = other.size := by
  have documents : handle.documents = other.documents := documentsFrom_congr sound alike same []
  rw [size_eq_length_documents sound, size_eq_length_documents alike, documents]

/-- Two handles read alike: their documents, and where they stand on the chain. -/
structure SameReadings (a b : Handle) : Prop where
  get : ∀ key, a.get? key = b.get? key
  document : ∀ key, a.getDocument? key = b.getDocument? key
  contains : ∀ key, a.contains key = b.contains key
  size : a.size = b.size
  isEmpty : a.isEmpty = b.isEmpty
  documents : a.documents = b.documents
  documentsFrom : ∀ start, a.documentsFrom start = b.documentsFrom start
  checkpoint : a.checkpoint = b.checkpoint
  previousCheckpoint : a.previousCheckpoint = b.previousCheckpoint
  history : a.history = b.history

end Handle
end CheckpointStore
