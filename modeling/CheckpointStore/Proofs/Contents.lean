import CheckpointStore.Proofs.Appends
import CheckpointStore.Proofs.Reads

/-!
# Committed documents

The documents of an index lie in the image it was built from, so they read the same whatever is
put behind that image. Advancing past a checkpoint of the staged changes leaves every look-up as
it was.
-/

namespace CheckpointStore

/-! ### The changes of a staging -/

namespace Staging

theorem mem_changes_iff {staging : Staging} {key : Bytes} {value : Option Bytes} :
    (⟨key, value⟩ : Change) ∈ staging.changes ↔
      ∃ pending, staging.get? key = some pending ∧ pending.written? = some value := by
  simp [changes, KeyMap.mem_entries_iff]

theorem ascending_changes (staging : Staging) : (staging.changes.map Change.key).Pairwise (· < ·) := by
  refine List.pairwise_map.mpr (List.Pairwise.filterMap _ ?_ staging.ascending_entries)
  intro a b less first fromA second fromB
  obtain ⟨_, -, rfl⟩ := Option.map_eq_some_iff.mp fromA
  obtain ⟨_, -, rfl⟩ := Option.map_eq_some_iff.mp fromB
  exact less

theorem nodup_changes (staging : Staging) : (staging.changes.map Change.key).Nodup := by
  refine staging.ascending_changes.imp ?_
  intro a b less same
  rw [same] at less
  exact List.lt_irrefl b less

/-- What is written of the entries is all that a commit writes of a staging. -/
theorem changes_congr {a b : Staging}
    (same : ∀ key, (a.get? key).bind Pending.written? = (b.get? key).bind Pending.written?) : a.changes = b.changes := by
  have mem (staging : Staging) (change : Change) :
      change ∈ staging.changes ↔ (staging.get? change.key).bind Pending.written? = some change.value := by
    rw [Option.bind_eq_some_iff]
    exact mem_changes_iff
  have permuted : a.changes.Perm b.changes :=
    (List.perm_ext_iff_of_nodup a.nodup_changes.of_map b.nodup_changes.of_map).mpr fun change => by
      rw [mem, mem, same]
  exact permuted.eq_of_pairwise (fun _ _ _ _ up down => absurd (List.lt_trans up down) (List.lt_irrefl _))
    (List.pairwise_map.mp a.ascending_changes) (List.pairwise_map.mp b.ascending_changes)

theorem changes_insert_empty (key : Bytes) {pending : Pending} {value : Option Bytes}
    (written : pending.written? = some value) : Staging.changes (KeyMap.empty.insert key pending) = [⟨key, value⟩] := by
  have entries : (KeyMap.empty.insert key pending).entries = [(key, pending)] := by
    refine Ascending.eq_of_mem_iff (KeyMap.ascending_entries _) (List.pairwise_singleton _ _) ?_
    intro other held
    rw [KeyMap.mem_entries_iff, KeyMap.get?_insert, List.mem_singleton, Prod.mk.injEq]
    split
    · rename_i same
      simp [same, eq_comm]
    · rename_i different
      simp [different]
  simp [changes, entries, written]

theorem changes_single (key value : Bytes) :
    Staging.changes (KeyMap.empty.insert key (.value value)) = [⟨key, some value⟩] := changes_insert_empty key rfl

end Staging

/-! ### Documents in the image -/

namespace LiveIndex

/-- Every document of the index ends within `size` bytes. -/
def Within (entries : KeyMap IndexEntry) (size : Nat) : Prop :=
  ∀ key entry, entries.get? key = some entry → entry.valueOffset + entry.valueLength ≤ size

theorem get?_applyBlock (checkpoint : Nat) (entries : KeyMap IndexEntry) (block : Block) (key : Bytes) :
    (applyBlock checkpoint entries block).get? key =
      if key = block.change.key then block.change.value.map fun value => ⟨block.valueOffset, value.length, checkpoint⟩
      else entries.get? key := by
  unfold applyBlock
  cases block.change.value with
  | none => exact KeyMap.get?_erase _ _ _
  | some bytes => exact KeyMap.get?_insert _ _ _ _

section Every

variable {holds : Bytes → IndexEntry → Prop} {checkpoint : Nat} {entries : KeyMap IndexEntry}

theorem every_applyBlock {block : Block} (every : ∀ key entry, entries.get? key = some entry → holds key entry)
    (held : ∀ value, block.change.value = some value → holds block.change.key ⟨block.valueOffset, value.length, checkpoint⟩) :
    ∀ key entry, (applyBlock checkpoint entries block).get? key = some entry → holds key entry := by
  intro key entry found
  rw [get?_applyBlock] at found
  split at found
  · rename_i same
    obtain ⟨value, written, rfl⟩ := Option.map_eq_some_iff.mp found
    exact same ▸ held value written
  · exact every key entry found

theorem every_foldl {blocks : List Block} (every : ∀ key entry, entries.get? key = some entry → holds key entry)
    (held : ∀ block ∈ blocks, ∀ value, block.change.value = some value →
      holds block.change.key ⟨block.valueOffset, value.length, checkpoint⟩) :
    ∀ key entry, (blocks.foldl (applyBlock checkpoint) entries).get? key = some entry → holds key entry := by
  induction blocks generalizing entries with
  | nil => exact every
  | cons block rest ih =>
    exact ih (every_applyBlock every (held block List.mem_cons_self))
      fun other mem => held other (List.mem_cons_of_mem _ mem)

theorem every_applyAll {image : Image} {trailers : List Trailer} {index final : LiveIndex}
    (every : ∀ key entry, index.entries.get? key = some entry → holds key entry)
    (applied : applyAll image trailers index = .ok final)
    (held : ∀ trailer ∈ trailers, ∀ blocks, trailer.blocks image = .ok blocks → ∀ block ∈ blocks,
      ∀ value, block.change.value = some value → holds block.change.key ⟨block.valueOffset, value.length, trailer.checkpointSize⟩) :
    ∀ key entry, final.entries.get? key = some entry → holds key entry := by
  induction trailers generalizing index with
  | nil =>
    obtain rfl := Except.ok.inj applied
    exact every
  | cons trailer rest ih =>
    rw [applyAll, apply] at applied
    cases parsed : trailer.blocks image with
    | error error => simp [parsed] at applied
    | ok blocks =>
      simp only [parsed] at applied
      exact ih (every_foldl every (held trailer List.mem_cons_self blocks parsed)) applied
        fun other mem => held other (List.mem_cons_of_mem _ mem)

/-- What is so of every document that the blocks of a chain hold is so of every entry of its index. -/
theorem every_build {image : Image} {pageSize stop : Nat} {trailers : List Trailer} {index : LiveIndex}
    (walk : Walk image pageSize stop trailers) (built : build image pageSize stop = .ok index)
    (held : ∀ trailer ∈ trailers, ∀ blocks, trailer.blocks image = .ok blocks → ∀ block ∈ blocks,
      ∀ value, block.change.value = some value → holds block.change.key ⟨block.valueOffset, value.length, trailer.checkpointSize⟩) :
    ∀ key entry, index.entries.get? key = some entry → holds key entry := by
  rw [build_of_walk walk] at built
  refine every_applyAll ?_ built fun trailer mem => held trailer (List.mem_reverse.mp mem)
  intro key entry found
  simp [empty] at found

end Every

theorem within_build {image : Image} {pageSize stop : Nat} {index : LiveIndex}
    (built : build image pageSize stop = .ok index) : Within index.entries image.size := by
  obtain ⟨trailers, walk⟩ := walk_of_build built
  refine every_build walk built ?_
  intro trailer mem blocks parsed block held value written
  obtain ⟨-, inside, -, -, -, placed⟩ := Trailer.readEndingAt_ok_iff.mp (walk.read trailer mem)
  have before := placed.beforeTrailer
  have ends := (Trailer.value_of_blocks parsed held).1
  rw [Change.valueBytes, written] at ends
  replace ends : block.valueOffset + value.length ≤ max trailer.offset trailer.blocksStart := ends
  have offset : trailer.offset = trailer.checkpointSize - 40 := rfl
  dsimp only
  omega

theorem get?_foldl_of_kept {α : Type} {step : KeyMap IndexEntry → α → KeyMap IndexEntry} {items : List α} {key : Bytes}
    (kept : ∀ item ∈ items, ∀ entries, (step entries item).get? key = entries.get? key) (entries : KeyMap IndexEntry) :
    (items.foldl step entries).get? key = entries.get? key := by
  induction items generalizing entries with
  | nil => rfl
  | cons item rest ih =>
    rw [List.foldl_cons, ih fun other mem => kept other (List.mem_cons_of_mem _ mem), kept item List.mem_cons_self]

theorem get?_foldl_of_absent {blocks : List Block} {key : Bytes} (checkpoint : Nat) (entries : KeyMap IndexEntry)
    (absent : ∀ block ∈ blocks, key ≠ block.change.key) :
    (blocks.foldl (applyBlock checkpoint) entries).get? key = entries.get? key :=
  get?_foldl_of_kept (fun block mem entries => by rw [get?_applyBlock, if_neg (absent block mem)]) entries

theorem get?_foldl_of_mem {blocks : List Block} {block : Block} (checkpoint : Nat) (entries : KeyMap IndexEntry)
    (distinct : (blocks.map fun block => block.change.key).Nodup) (mem : block ∈ blocks) :
    (blocks.foldl (applyBlock checkpoint) entries).get? block.change.key
      = block.change.value.map fun value => ⟨block.valueOffset, value.length, checkpoint⟩ := by
  induction blocks generalizing entries with
  | nil => contradiction
  | cons first rest ih =>
    obtain ⟨fresh, later⟩ := List.nodup_cons.mp distinct
    rw [List.foldl_cons]
    rcases List.mem_cons.mp mem with rfl | mem
    · rw [get?_foldl_of_absent, get?_applyBlock, if_pos rfl]
      intro other here same
      exact fresh (List.mem_map.mpr ⟨other, here, same.symm⟩)
    · exact ih _ later mem

end LiveIndex

namespace Handle

variable {handle : Handle}

theorem Grounded.within (grounded : handle.Grounded) : LiveIndex.Within handle.index.entries handle.image.size :=
  LiveIndex.within_build grounded.index

theorem Grounded.value_agree (grounded : handle.Grounded) {image : Image} {key : Bytes} {entry : IndexEntry}
    (agree : Image.Agree handle.image.size handle.image image) (found : handle.index.entries.get? key = some entry) :
    entry.value image = entry.value handle.image :=
  (agree.slice (grounded.within key entry found)).symm

theorem Grounded.get?_behind (grounded : handle.Grounded) (rest : Image) (key : Bytes) :
    (handle.behind rest).get? key = handle.get? key := by
  have committed : (handle.behind rest).committed? key = handle.committed? key := by
    apply Option.map_congr
    intro entry found
    exact grounded.value_agree (Image.agree_append handle.image rest) found
  unfold get?
  rw [committed]
  rfl

/-- Bytes behind the image change no reading. -/
theorem Grounded.documentsFrom_behind (grounded : handle.Grounded) (sound : handle.Sound) (rest : Image) (start : Bytes) :
    (handle.behind rest).documentsFrom start = handle.documentsFrom start := by
  have alike : (handle.behind rest).Sound := sound
  exact documentsFrom_congr alike sound (grounded.get?_behind rest) start

theorem get?_of_staged_empty (empty : handle.staged = KeyMap.empty) (key : Bytes) :
    handle.get? key = handle.committed? key := by
  unfold get?
  rw [empty, KeyMap.get?_empty]

/-- A key reads as the change that is to be written for it, and without one as what is committed. -/
theorem get?_cases (handle : Handle) (key : Bytes) :
    (∃ value, (⟨key, value⟩ : Change) ∈ handle.staged.changes ∧ handle.get? key = value) ∨
      (∀ value, (⟨key, value⟩ : Change) ∉ handle.staged.changes) ∧ handle.get? key = handle.committed? key := by
  by_cases written : ∃ value, (⟨key, value⟩ : Change) ∈ handle.staged.changes
  · obtain ⟨value, mem⟩ := written
    obtain ⟨pending, staged, wrote⟩ := Staging.mem_changes_iff.mp mem
    exact .inl ⟨value, mem, get?_of_written staged wrote⟩
  · refine .inr ⟨fun value mem => written ⟨value, mem⟩, get?_of_unwritten ?_⟩
    intro pending staged
    cases wrote : pending.written? with
    | none => rfl
    | some value => exact absurd ⟨value, Staging.mem_changes_iff.mpr ⟨pending, staged, wrote⟩⟩ written

section Advanced

variable {changes : List Change} {key : Bytes}

theorem Grounded.committed?_advanced_of_mem (grounded : handle.Grounded) (count : changes.length < PendingCheckpoint.countLimit)
    (fit : ∀ change ∈ changes, change.Fits) (addressable : (handle.advanced changes).image.size < 256 ^ 8)
    (distinct : (changes.map Change.key).Nodup) {value : Option Bytes} (mem : (⟨key, value⟩ : Change) ∈ changes) :
    (handle.advanced changes).committed? key = value := by
  have parsed := (grounded.read_advanced count fit addressable).2
  rw [← Block.map_change_place handle.image.size changes] at distinct mem
  rw [List.map_map] at distinct
  obtain ⟨block, here, same⟩ := List.mem_map.mp mem
  have found := LiveIndex.get?_foldl_of_mem (handle.laidOut changes).trailer.checkpointSize
    handle.index.entries distinct here
  have bytes := (Trailer.value_of_blocks parsed here).2
  rw [same] at found bytes
  show Option.map _ (KeyMap.get? (List.foldl _ _ _) key) = value
  rw [found]
  cases value with
  | none => rfl
  | some value => exact congrArg some bytes

theorem Grounded.committed?_advanced_of_absent (grounded : handle.Grounded)
    (absent : ∀ value, (⟨key, value⟩ : Change) ∉ changes) :
    (handle.advanced changes).committed? key = handle.committed? key := by
  have old : (handle.advanced changes).index.entries.get? key = handle.index.entries.get? key := by
    apply LiveIndex.get?_foldl_of_absent
    intro block here same
    refine absent block.change.value ?_
    rw [← Block.map_change_place handle.image.size changes, same]
    exact List.mem_map_of_mem here
  unfold committed? LiveIndex.get?
  rw [old]
  apply Option.map_congr
  intro entry found
  exact grounded.value_agree (Image.agree_append _ _) found

/-- Committing the staged changes keeps every look-up. -/
theorem Grounded.get?_advanced (grounded : handle.Grounded)
    (count : handle.staged.changes.length < PendingCheckpoint.countLimit)
    (fit : ∀ change ∈ handle.staged.changes, change.Fits)
    (addressable : (handle.advanced handle.staged.changes).image.size < 256 ^ 8) :
    (handle.advanced handle.staged.changes).get? key = handle.get? key := by
  rw [get?_of_staged_empty rfl]
  rcases handle.get?_cases key with ⟨value, mem, found⟩ | ⟨absent, found⟩
  · rw [found]
    exact grounded.committed?_advanced_of_mem count fit addressable handle.staged.nodup_changes mem
  · rw [found]
    exact grounded.committed?_advanced_of_absent absent

end Advanced

theorem get?_of_changes_eq_nil (nothing : handle.staged.changes = []) (key : Bytes) :
    ({ handle with staged := KeyMap.empty } : Handle).get? key = handle.get? key := by
  rw [get?_of_staged_empty rfl]
  rcases handle.get?_cases key with ⟨value, mem, -⟩ | ⟨-, found⟩
  · rw [nothing] at mem
    contradiction
  · rw [found]
    rfl

end Handle
end CheckpointStore
