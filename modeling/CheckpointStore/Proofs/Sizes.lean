import Mathlib.Algebra.Order.BigOperators.Group.List
import CheckpointStore.Proofs.Exports
import CheckpointStore.Proofs.Identifiers
import CheckpointStore.Proofs.Writes

/-!
# Sizes of compacted copies

Every live document lies in a block of its own, between the header and the trailer of the checkpoint
that is read. So the blocks of a compacted copy, which has one for each live document, take no more room
than the checkpoint does, and neither does the copy once it is filled up to a page.
-/

namespace CheckpointStore

/-! ### What the entries of a map weigh -/

namespace KeyMap

variable {α : Type} (weigh : Bytes → α → Nat)

def weight (map : KeyMap α) : Nat := (map.entries.map fun entry => weigh entry.1 entry.2).sum

theorem entries_erase (map : KeyMap α) (key : Bytes) :
    (map.erase key).entries = map.entries.filter fun entry => entry.1 ≠ key := by
  refine Ascending.eq_of_mem_iff (ascending_entries _) (map.ascending_entries.filter _) fun other value => ?_
  rw [mem_entries_iff, get?_erase, List.mem_filter, mem_entries_iff]
  by_cases same : other = key <;> simp [same]

theorem entries_insert_perm (map : KeyMap α) (key : Bytes) (value : α) :
    (map.insert key value).entries.Perm ((key, value) :: (map.erase key).entries) := by
  have fresh : (key, value) ∉ (map.erase key).entries := by simp [entries_erase]
  have distinct (other : KeyMap α) : other.entries.Nodup := (Ascending.nodup_keys other.ascending_entries).of_map
  refine (List.perm_ext_iff_of_nodup (distinct _) (List.nodup_cons.mpr ⟨fresh, distinct _⟩)).mpr ?_
  rintro ⟨other, held⟩
  rw [mem_entries_iff, get?_insert, List.mem_cons, mem_entries_iff, get?_erase, Prod.mk.injEq]
  by_cases same : other = key
  · simp [same, eq_comm]
  · simp [same]

theorem weight_erase_le (map : KeyMap α) (key : Bytes) : (map.erase key).weight weigh ≤ map.weight weigh := by
  rw [weight, entries_erase]
  exact List.Sublist.sum_le_sum (List.filter_sublist.map _) fun _ _ => Nat.zero_le _

theorem weight_insert_le (map : KeyMap α) (key : Bytes) (value : α) :
    (map.insert key value).weight weigh ≤ map.weight weigh + weigh key value := by
  have others := weight_erase_le weigh map key
  rw [weight, ((entries_insert_perm map key value).map _).sum_eq, List.map_cons, List.sum_cons, Nat.add_comm]
  exact Nat.add_le_add_right others _

end KeyMap

/-! ### Live documents and the blocks that they lie in -/

/-- The bytes of the block that an entry's document lies in. -/
def IndexEntry.span (key : Bytes) (entry : IndexEntry) : Nat := Change.overhead + key.length + entry.valueLength

namespace LiveIndex

/-- The bytes of all the blocks that live documents lie in. -/
def span (index : LiveIndex) : Nat := index.entries.weight IndexEntry.span

theorem span_empty : empty.span = 0 := by
  rw [span, KeyMap.weight, empty, KeyMap.entries_empty]
  rfl

theorem weight_applyBlock_le (checkpoint : Nat) (entries : KeyMap IndexEntry) (block : Block) :
    (applyBlock checkpoint entries block).weight IndexEntry.span ≤ entries.weight IndexEntry.span + block.length := by
  unfold applyBlock
  cases written : block.change.value with
  | none => exact Nat.le_trans (KeyMap.weight_erase_le _ _ _) (Nat.le_add_right _ _)
  | some value =>
    have own : IndexEntry.span block.change.key ⟨block.valueOffset, value.length, checkpoint⟩ = block.length := by
      rw [Block.length, Change.encodedLength, Change.valueBytes, written]
      rfl
    exact own ▸ KeyMap.weight_insert_le _ _ _ _

theorem weight_foldl_le (checkpoint : Nat) (entries : KeyMap IndexEntry) (blocks : List Block) :
    (blocks.foldl (applyBlock checkpoint) entries).weight IndexEntry.span
      ≤ entries.weight IndexEntry.span + (blocks.map Block.length).sum := by
  induction blocks generalizing entries with
  | nil => exact Nat.le_refl _
  | cons block rest ih =>
    have first := weight_applyBlock_le checkpoint entries block
    have later := ih (applyBlock checkpoint entries block)
    rw [List.foldl_cons, List.map_cons, List.sum_cons]
    omega

theorem sum_length_place (offset : Nat) (changes : List Change) :
    ((Block.place offset changes).map Block.length).sum = (changes.flatMap Change.encode).length := by
  induction changes generalizing offset with
  | nil => rfl
  | cons change rest ih =>
    rw [Block.place, List.map_cons, List.sum_cons, ih, List.flatMap_cons, List.length_append, Change.length_encode]
    rfl

theorem sum_length_blocks {image : Image} {trailer : Trailer} {blocks : List Block} (parsed : trailer.blocks image = .ok blocks) :
    (blocks.map Block.length).sum ≤ trailer.offset - trailer.blocksStart := by
  obtain ⟨changes, rest, -, -, window, rfl⟩ := Trailer.blocks_ok_iff.mp parsed
  have size := congrArg List.length window
  rw [Image.length_slice, List.length_append] at size
  rw [sum_length_place]
  omega

theorem span_apply_le {image : Image} {trailer : Trailer} {older index : LiveIndex}
    (applied : older.apply image trailer = .ok index) : index.span ≤ older.span + (trailer.offset - trailer.blocksStart) := by
  unfold apply at applied
  cases parsed : trailer.blocks image with
  | error error =>
    rw [parsed] at applied
    contradiction
  | ok blocks =>
    rw [parsed] at applied
    obtain rfl := Except.ok.inj applied
    exact Nat.le_trans (weight_foldl_le _ _ _) (Nat.add_le_add_left (sum_length_blocks parsed) _)

/-- Between the header and the end of a checkpoint, which is that of a page, there is room for the blocks
of all its live documents and for a trailer. -/
theorem span_build_le {image : Image} {pageSize stop : Nat} {trailers : List Trailer} {index : LiveIndex}
    (walk : Walk image pageSize stop trailers) (built : build image pageSize stop = .ok index) :
    stop = 0 ∧ index = empty ∨ pageSize ∣ stop ∧ pageSize + index.span + Trailer.size ≤ stop := by
  induction walk generalizing index with
  | header =>
    rw [build_of_walk .header] at built
    exact .inl ⟨rfl, (Except.ok.inj built).symm⟩
  | @step stop trailer older read rest ih =>
    rw [build_eq_apply read] at built
    cases before : build image pageSize trailer.previousCheckpoint with
    | error error =>
      rw [before] at built
      contradiction
    | ok earlier =>
      rw [before] at built
      have added := span_apply_le built
      obtain ⟨above, -, aligned, -, -, placed⟩ := Trailer.readEndingAt_ok_iff.mp read
      have ends := placed.ends
      have first := placed.afterHeader
      have last := placed.beforeTrailer
      have back := Trailer.previousCheckpoint_le placed
      have offset : trailer.offset = trailer.checkpointSize - Trailer.size := rfl
      -- what came before ends where the blocks of this checkpoint start, or there was only a header
      have room : pageSize + earlier.span ≤ trailer.blocksStart := by
        rcases ih before with ⟨-, rfl⟩ | ⟨-, fits⟩
        · rw [span_empty]
          exact first
        · omega
      exact .inr ⟨Nat.dvd_of_mod_eq_zero aligned, by omega⟩

/-- A live document fits in a block, since it lies in one. -/
theorem fits_build {image : Image} {pageSize stop : Nat} {index : LiveIndex} (built : build image pageSize stop = .ok index) :
    ∀ key entry, index.entries.get? key = some entry → entry.span key < Change.lengthLimit := by
  obtain ⟨trailers, walk⟩ := walk_of_build built
  refine every_build walk built ?_
  intro trailer mem blocks parsed block held value written
  obtain ⟨changes, rest, -, fit, -, rfl⟩ := Trailer.blocks_ok_iff.mp parsed
  have listed : block.change ∈ (Block.place trailer.blocksStart changes).map Block.change := List.mem_map_of_mem held
  have fits := fit _ (Block.map_change_place _ changes ▸ listed)
  rw [Change.Fits, Change.encodedLength, Change.valueBytes, written] at fits
  exact fits

end LiveIndex

/-! ### Compacted copies -/

namespace Handle

variable {handle : Handle}

theorem documents_of_bare (bare : handle.staged = KeyMap.empty) :
    handle.documents = handle.index.entries.entries.map fun entry => (entry.1, entry.2.value handle.image) := by
  have whole (map : KeyMap IndexEntry) : map.startingAt [] = map.entries :=
    List.filter_eq_self.mpr fun entry _ => by simp
  have nothing : handle.staged.startingAt [] = [] := by
    rw [bare, KeyMap.startingAt, KeyMap.entries_empty]
    rfl
  rw [documents, documentsFrom, nothing, whole, mergeEntries]

theorem length_value {image : Image} {entry : IndexEntry} (inside : entry.valueOffset + entry.valueLength ≤ image.size) :
    (entry.value image).length = entry.valueLength := by
  rw [IndexEntry.value, Image.length_slice]
  omega

theorem length_liveChanges (within : LiveIndex.Within handle.index.entries handle.image.size)
    (bare : handle.staged = KeyMap.empty) : (handle.liveChanges.flatMap Change.encode).length = handle.index.span := by
  rw [liveChanges, documents_of_bare bare, List.map_map, List.flatMap_map, List.length_flatMap, LiveIndex.span, KeyMap.weight]
  refine congrArg List.sum (List.map_congr_left ?_)
  rintro ⟨key, entry⟩ mem
  have value := length_value (within key entry (KeyMap.mem_entries_iff.mp mem))
  show (Change.encode ⟨key, some (entry.value handle.image)⟩).length = _
  rw [Change.length_encode, Change.encodedLength, Change.valueBytes, Option.getD_some, value]
  rfl

theorem fits_liveChanges (charted : handle.Charted) (bare : handle.staged = KeyMap.empty) :
    ∀ change ∈ handle.liveChanges, change.Fits := by
  intro change mem
  rw [liveChanges, documents_of_bare bare, List.map_map] at mem
  obtain ⟨⟨key, entry⟩, listed, rfl⟩ := List.mem_map.mp mem
  have found := KeyMap.mem_entries_iff.mp listed
  have fits := LiveIndex.fits_build charted.index key entry found
  have value := length_value (LiveIndex.within_build charted.index key entry found)
  show Change.overhead + key.length + (entry.value handle.image).length < _
  rw [value]
  exact fits

/-- The checkpoint has room for what the compacted blocks and a trailer take behind a header. -/
theorem Charted.room (charted : handle.Charted) (bare : handle.staged = KeyMap.empty) (some : handle.documents ≠ []) :
    handle.pageSize ∣ handle.checkpoint ∧
      handle.pageSize + (handle.liveChanges.flatMap Change.encode).length + 40 ≤ handle.checkpoint := by
  obtain ⟨trailers, walk, -⟩ := charted.walk
  rw [length_liveChanges (LiveIndex.within_build charted.index) bare]
  rcases LiveIndex.span_build_le walk charted.index with ⟨-, nothing⟩ | room
  · rw [documents_of_bare bare, nothing, LiveIndex.empty, KeyMap.entries_empty] at some
    contradiction
  · exact room

/-- The copy of a handle without staged changes ends on the first page boundary that it can, and the
checkpoint ends on one of those. -/
theorem Charted.length_compacted_le (charted : handle.Charted) (titled : handle.Titled) (bare : handle.staged = KeyMap.empty)
    {bytes : Bytes} (made : handle.compacted = .ok bytes) : bytes.length ≤ max handle.pageSize handle.checkpoint := by
  have size : (Image.ofBytes bytes).size = bytes.length := Image.size_ofBytes bytes
  have header : handle.blank.image.size = handle.pageSize := size_newImage _
  rcases compacted_ok_iff.mp made with ⟨-, image⟩ | ⟨some, -, -, image⟩
  · rw [← size, image, header]
    exact Nat.le_max_left _ _
  · obtain ⟨aligned, room⟩ := charted.room bare some
    have positive := (pageSize_pos titled).1
    have least := (isLeast_roundUp (handle.pageSize + (handle.liveChanges.flatMap Change.encode).length + 40)
      (show 0 < handle.pageSize by omega)).2 ⟨aligned, room⟩
    rw [← size, image, titled.grounded_blank.size_advanced]
    refine Nat.le_trans ?_ (Nat.le_max_right _ _)
    show roundUp (handle.blank.image.size + _ + 40) handle.pageSize ≤ _
    rw [header]
    exact least

theorem Charted.compacted_ok_iff_of_bare (charted : handle.Charted) (bare : handle.staged = KeyMap.empty) :
    (∃ bytes, handle.compacted = .ok bytes) ↔ handle.documents.length < PendingCheckpoint.countLimit := by
  have count : handle.liveChanges.length = handle.documents.length := List.length_map _
  constructor
  · rintro ⟨bytes, made⟩
    rcases compacted_ok_iff.mp made with ⟨empty, -⟩ | ⟨-, few, -⟩
    · rw [empty]
      decide
    · exact count ▸ few
  · intro few
    by_cases empty : handle.documents = []
    · exact ⟨_, compacted_ok_iff.mpr (.inl ⟨empty, Image.ofBytes_bytes _⟩)⟩
    · exact ⟨_, compacted_ok_iff.mpr (.inr ⟨empty, count ▸ few, fits_liveChanges charted bare, Image.ofBytes_bytes _⟩)⟩

end Handle

namespace Session

open Handle MemoryStore

variable {session : Session}

/-- A handle or a view without staged changes has a compacted copy unless its documents are too many,
and the copy is no longer than a page or the checkpoint is. -/
theorem compacted_copy_never_grows (reachable : session.Reachable) (addressable : session.handle.image.size < 256 ^ 8)
    (unchanged : session.handle.hasChanges = false) :
    ((∃ bytes, session.handle.compacted = .ok bytes) ↔
        session.handle.documents.length < PendingCheckpoint.countLimit) ∧
      ∀ bytes, session.handle.compacted = .ok bytes →
        bytes.length ≤ max session.handle.pageSize session.handle.checkpoint := by
  have kept := reachable.kept addressable
  -- documents that are only held for edits are read as they were committed
  have alike : ({ session.handle with staged := KeyMap.empty } : Handle).documents = session.handle.documents :=
    documentsFrom_congr (Sound.of_staged_empty rfl) reachable.sound
      (get?_of_changes_eq_nil (hasChanges_eq_false_iff.mp unchanged)) []
  have same : ({ session.handle with staged := KeyMap.empty } : Handle).compacted = session.handle.compacted :=
    compacted_congr rfl alike
  have charted : ({ session.handle with staged := KeyMap.empty } : Handle).Charted := kept.charted.of_same rfl rfl rfl rfl rfl
  rw [← same, ← alike]
  exact ⟨charted.compacted_ok_iff_of_bare rfl, fun bytes made => charted.length_compacted_le kept.sized rfl made⟩

/-- One document is committed and its copy has no more bytes than the file, of which two pages are filled. -/
theorem copy_of_one_document_is_short :
    ∃ session bytes, session = (create { pageSize := 512 } {}).run [.put [0x61] [0x31] .upsert, .commit] ∧
      session.Reachable ∧ session.handle.checkpoint = 1024 ∧ session.handle.hasChanges = false ∧
      session.handle.compacted = .ok bytes ∧ bytes.length ≤ 1024 := by
  obtain ⟨handle, store, ran, -, -, -, -, bare, size, checkpoint, page, committed⟩ :=
    one_committed (by decide : Change.Fits ⟨[0x61], some [0x31]⟩) (by decide)
  have reachable : ((create { pageSize := 512 } {}).run [.put [0x61] [0x31] .upsert, .commit]).Reachable :=
    (Reachable.opened (opened_create rfl rfl rfl rfl)).run _
  rw [ran] at reachable ⊢
  have unchanged : handle.hasChanges = false := by
    rw [hasChanges_eq_false_iff, bare]
    rfl
  have documents : handle.documents = [([0x61], [0x31])] := by
    refine ascending_documents.eq_of_mem_iff (List.pairwise_singleton _ _) fun key value => ?_
    rw [mem_documents_iff (Sound.of_staged_empty bare), get?_of_staged_empty bare, committed]
    by_cases same : key = [0x61] <;> simp [same, eq_comm]
  obtain ⟨exactly, short⟩ := compacted_copy_never_grows reachable (by rw [size]; decide) unchanged
  obtain ⟨bytes, made⟩ := exactly.mpr (by rw [documents]; decide)
  have bound := short bytes made
  rw [page, checkpoint] at bound
  exact ⟨_, bytes, rfl, reachable, checkpoint, unchanged, made, bound⟩

end Session
end CheckpointStore
