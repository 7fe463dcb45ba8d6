import CheckpointStore.Proofs.Contents

/-!
# The index as a replay

The blocks of a chain, oldest first, are a log, and the index is what the log leaves: a key has a
document exactly when the last block for it is one, and then the entry says where that document lies.
The log of a checkpoint is that of the one before it and its own blocks behind, so bytes past a
checkpoint play no part in its index.
-/

namespace CheckpointStore

/-- A block and the trailer of the checkpoint that holds it. -/
structure Logged where
  trailer : Trailer
  block : Block

namespace Logged

def key (logged : Logged) : Bytes := logged.block.change.key

/-- What the block leaves in the index for its key: an entry, or none when the key is removed. -/
def entry? (logged : Logged) : Option IndexEntry :=
  logged.block.change.value.map fun value =>
    ⟨logged.block.valueOffset, value.length, logged.trailer.checkpointSize⟩

def replay (entries : KeyMap IndexEntry) (logged : Logged) : KeyMap IndexEntry :=
  LiveIndex.applyBlock logged.trailer.checkpointSize entries logged.block

theorem get?_replay (entries : KeyMap IndexEntry) (logged : Logged) (key : Bytes) :
    (replay entries logged).get? key = if key = logged.key then logged.entry? else entries.get? key :=
  LiveIndex.get?_applyBlock _ _ _ _

theorem exists_entry_iff (logged : Logged) :
    (∃ entry, logged.entry? = some entry) ↔ logged.block.change.kind = .document := by
  unfold entry? Change.kind
  cases logged.block.change.value <;> simp

end Logged

/-- The blocks of these checkpoints one after the other, each with the trailer of its own. -/
def logOf (image : Image) : List Trailer → Except StorageError (List Logged)
  | [] => .ok []
  | trailer :: rest =>
    match trailer.blocks image with
    | .error error => .error error
    | .ok blocks =>
      match logOf image rest with
      | .error error => .error error
      | .ok later => .ok (blocks.map (Logged.mk trailer) ++ later)

/-- Of all blocks for the key this one stands last in the log. -/
def LastFor (key : Bytes) (log : List Logged) (logged : Logged) : Prop :=
  ∃ earlier later, log = earlier ++ logged :: later ∧ logged.key = key ∧ ∀ other ∈ later, other.key ≠ key

/-- The entry says where the document of the block lies, and of which checkpoint it is. -/
structure Locates (image : Image) (entry : IndexEntry) (logged : Logged) : Prop where
  document : logged.block.change.value = some (entry.value image)
  offset : entry.valueOffset = logged.block.valueOffset
  length : entry.valueLength = (entry.value image).length
  checkpoint : entry.checkpoint = logged.trailer.checkpointSize
  inside : entry.valueOffset + entry.valueLength + 40 ≤ entry.checkpoint

/-! ### The log of a chain -/

section Log

variable {image : Image} {trailers : List Trailer} {log : List Logged}

theorem logOf_cons_ok_iff {trailer : Trailer} {rest : List Trailer} :
    logOf image (trailer :: rest) = .ok log ↔
      ∃ blocks later, trailer.blocks image = .ok blocks ∧ logOf image rest = .ok later ∧
        log = blocks.map (Logged.mk trailer) ++ later := by
  rw [logOf]
  cases trailer.blocks image with
  | error error => simp
  | ok blocks => cases logOf image rest <;> simp [eq_comm]

theorem held_of_mem_logOf (logs : logOf image trailers = .ok log) {logged : Logged} (mem : logged ∈ log) :
    logged.trailer ∈ trailers ∧ ∃ blocks, logged.trailer.blocks image = .ok blocks ∧ logged.block ∈ blocks := by
  induction trailers generalizing log with
  | nil =>
    obtain rfl := Except.ok.inj logs
    contradiction
  | cons trailer rest ih =>
    obtain ⟨blocks, later, parsed, rested, rfl⟩ := logOf_cons_ok_iff.mp logs
    rcases List.mem_append.mp mem with own | mem
    · obtain ⟨block, held, rfl⟩ := List.mem_map.mp own
      exact ⟨List.mem_cons_self, blocks, parsed, held⟩
    · obtain ⟨old, held⟩ := ih rested mem
      exact ⟨List.mem_cons_of_mem _ old, held⟩

/-- Applying checkpoints one after the other is a replay of their log. -/
theorem LiveIndex.applyAll_eq_replay (image : Image) (trailers : List Trailer) (index : LiveIndex) :
    applyAll image trailers index = (logOf image trailers).map fun log =>
      ⟨log.foldl Logged.replay index.entries,
        (trailers.map Trailer.checkpointSize).getLast?.getD index.checkpoint⟩ := by
  induction trailers generalizing index with
  | nil => rfl
  | cons trailer rest ih =>
    rw [applyAll, apply, logOf]
    cases trailer.blocks image with
    | error error => rfl
    | ok blocks =>
      dsimp only
      rw [ih, List.map_cons, List.getLast?_cons, Option.getD_some]
      cases logOf image rest with
      | error error => rfl
      | ok later =>
        simp only [Except.map, List.foldl_append, List.foldl_map]
        rfl

end Log

/-! ### What a replay leaves -/

section Replay

variable {key : Bytes} {log : List Logged} {logged : Logged}

theorem exists_lastFor_or_absent (key : Bytes) (log : List Logged) :
    (∃ logged, LastFor key log logged) ∨ ∀ logged ∈ log, logged.key ≠ key := by
  induction log with
  | nil => exact .inr nofun
  | cons first rest ih =>
    rcases ih with ⟨logged, earlier, later, rfl, same, last⟩ | absent
    · exact .inl ⟨logged, first :: earlier, later, rfl, same, last⟩
    · by_cases same : first.key = key
      · exact .inl ⟨first, [], rest, rfl, same, absent⟩
      · exact .inr (List.forall_mem_cons.mpr ⟨same, absent⟩)

theorem LastFor.mem (last : LastFor key log logged) : logged ∈ log ∧ logged.key = key := by
  obtain ⟨earlier, later, rfl, same, -⟩ := last
  exact ⟨List.mem_append_right _ List.mem_cons_self, same⟩

/-- At most one block stands last for a key. -/
theorem LastFor.unique {other : Logged} (last : LastFor key log logged) (again : LastFor key log other) :
    other = logged := by
  obtain ⟨earlier, later, rfl, same, absent⟩ := last
  obtain ⟨front, back, split, also, missing⟩ := again
  rcases List.append_eq_append_iff.mp split with ⟨gap, rfl, rest⟩ | ⟨gap, rfl, rest⟩
  · cases gap with
    | nil => exact (List.cons.inj rest).1.symm
    | cons first gap =>
      obtain ⟨-, rfl⟩ := List.cons.inj rest
      exact absurd also (absent other (List.mem_append_right _ List.mem_cons_self))
  · cases gap with
    | nil => exact (List.cons.inj rest).1
    | cons first gap =>
      obtain ⟨-, rfl⟩ := List.cons.inj rest
      exact absurd same (missing logged (List.mem_append_right _ List.mem_cons_self))

theorem get?_foldl_of_unlogged (entries : KeyMap IndexEntry) (absent : ∀ logged ∈ log, logged.key ≠ key) :
    (log.foldl Logged.replay entries).get? key = entries.get? key :=
  LiveIndex.get?_foldl_of_kept
    (fun logged mem entries => by rw [Logged.get?_replay, if_neg (Ne.symm (absent logged mem))]) entries

/-- The last block for a key decides, whatever stood for it before. -/
theorem get?_foldl_of_last (entries : KeyMap IndexEntry) (last : LastFor key log logged) :
    (log.foldl Logged.replay entries).get? key = logged.entry? := by
  obtain ⟨earlier, later, rfl, rfl, absent⟩ := last
  rw [List.foldl_append, List.foldl_cons, get?_foldl_of_unlogged _ absent, Logged.get?_replay, if_pos rfl]

theorem get?_foldl_empty_iff {entry : IndexEntry} :
    (log.foldl Logged.replay KeyMap.empty).get? key = some entry ↔
      ∃ logged, LastFor key log logged ∧ logged.entry? = some entry := by
  constructor
  · intro found
    rcases exists_lastFor_or_absent key log with ⟨logged, last⟩ | absent
    · exact ⟨logged, last, (get?_foldl_of_last _ last).symm.trans found⟩
    · rw [get?_foldl_of_unlogged _ absent, KeyMap.get?_empty] at found
      contradiction
  · rintro ⟨logged, last, left⟩
    exact (get?_foldl_of_last _ last).trans left

end Replay

namespace LiveIndex

variable {image : Image} {pageSize stop : Nat} {trailers : List Trailer} {log : List Logged} {index : LiveIndex}

/-- The document of a block on a chain lies before the trailer that counts the block. -/
theorem locates_of_walk (walk : Walk image pageSize stop trailers) (logs : logOf image trailers.reverse = .ok log)
    {logged : Logged} (mem : logged ∈ log) {entry : IndexEntry} (left : logged.entry? = some entry) :
    Locates image entry logged := by
  obtain ⟨old, blocks, parsed, held⟩ := held_of_mem_logOf logs mem
  obtain ⟨-, -, -, -, -, placed⟩ := Trailer.readEndingAt_ok_iff.mp (walk.read _ (List.mem_reverse.mp old))
  obtain ⟨value, written, rfl⟩ := Option.map_eq_some_iff.mp left
  obtain ⟨inside, lies⟩ := Trailer.value_of_blocks parsed held
  rw [Change.valueBytes, written] at inside lies
  have before := placed.beforeTrailer
  have past := (stop_of_read (walk.read _ (List.mem_reverse.mp old))).2.1
  have offset : logged.trailer.offset = logged.trailer.checkpointSize - 40 := rfl
  have same : (⟨logged.block.valueOffset, value.length, logged.trailer.checkpointSize⟩ : IndexEntry).value image
    = value := lies
  replace inside : logged.block.valueOffset + value.length ≤ max logged.trailer.offset logged.trailer.blocksStart := inside
  refine ⟨by rw [written, same], rfl, by rw [same], rfl, ?_⟩
  dsimp only
  omega

/-- The index of a checkpoint is what the blocks of its chain leave when they are replayed in order: the
last block for a key decides. It is that of the checkpoint before with the checkpoint's own blocks
applied, and the bytes up to the checkpoint alone say whether it is built and what it is. -/
theorem build_is_last_writer_wins (image : Image) (pageSize stop : Nat) :
    (∀ index, build image pageSize stop = .ok index → index.checkpoint = stop ∧
      ∃ trailers log, chain image pageSize stop = .ok trailers ∧ logOf image trailers.reverse = .ok log ∧
        ∀ key,
          ((∃ entry, index.get? key = some entry) ↔
            ∃ logged, LastFor key log logged ∧ logged.block.change.kind = .document) ∧
          ∀ entry, index.get? key = some entry →
            ∃ logged, LastFor key log logged ∧ Locates image entry logged ∧ logged.trailer ∈ trailers ∧
              ∃ blocks, logged.trailer.blocks image = .ok blocks ∧ logged.block ∈ blocks) ∧
    (∀ trailer, Trailer.readEndingAt image stop pageSize = .ok trailer →
      build image pageSize stop = (build image pageSize trailer.previousCheckpoint).bind (·.apply image trailer)) ∧
    ∀ other : Image, stop ≤ image.size → stop ≤ other.size → image.bytes.take stop = other.bytes.take stop →
      build image pageSize stop = build other pageSize stop := by
  refine ⟨fun index built => ?_, fun trailer read => build_eq_apply read,
    fun other left right same => build_agree ⟨left, right, same⟩ (Nat.le_refl stop)⟩
  obtain ⟨trailers, walk⟩ := walk_of_build built
  rw [build_of_walk walk, applyAll_eq_replay, List.map_reverse, List.getLast?_reverse] at built
  cases logs : logOf image trailers.reverse with
  | error error =>
    rw [logs] at built
    contradiction
  | ok log =>
    rw [logs] at built
    obtain rfl := Except.ok.inj built
    refine ⟨walk.newest, trailers, log, chain_ok_iff.mpr walk, logs, fun key => ⟨?_, fun entry found => ?_⟩⟩
    · constructor
      · rintro ⟨entry, found⟩
        obtain ⟨logged, last, left⟩ := get?_foldl_empty_iff.mp found
        exact ⟨logged, last, logged.exists_entry_iff.mp ⟨entry, left⟩⟩
      · rintro ⟨logged, last, document⟩
        obtain ⟨entry, left⟩ := logged.exists_entry_iff.mpr document
        exact ⟨entry, get?_foldl_empty_iff.mpr ⟨logged, last, left⟩⟩
    · obtain ⟨logged, last, left⟩ := get?_foldl_empty_iff.mp found
      obtain ⟨old, held⟩ := held_of_mem_logOf logs last.mem.1
      exact ⟨logged, last, locates_of_walk walk logs last.mem.1 left, List.mem_reverse.mp old, held⟩

/-- The first checkpoint has a document that the second removes beside a new one. The removed key has no
entry, and a byte behind the second checkpoint changes nothing. -/
theorem put_after_removal_wins :
    ∃ image index trailer entry, build image 512 1536 = .ok index ∧
      Trailer.readEndingAt image 1536 512 = .ok trailer ∧
      build image 512 1536 = (build image 512 1024).bind (·.apply image trailer) ∧
      index.get? [0x61] = none ∧ index.get? [0x62] = some entry ∧ entry.value image = [0x32] ∧
      entry.checkpoint = 1536 ∧ build (image ++ .ofBytes [0xFF]) 512 1536 = .ok index := by
  have blank : (Image.ofBytes (Bytes.zeros 512)).size = 512 := by simp
  obtain ⟨front, first, size, -, read, oldest, held⟩ :=
    @PendingCheckpoint.exists_longer 512 none [⟨[0x61], some [0x31]⟩] (.ofBytes (Bytes.zeros 512)) 1024 (by decide)
      (by rw [blank]) nofun (by decide) (by decide) (by rw [blank]; decide) (by decide)
  have closed : validateCheckpoint front 1024 512 = .ok first := validateCheckpoint_ok_iff.mpr ⟨read, _, held⟩
  have links : PendingCheckpoint.Links front.size 512 (some first) :=
    PendingCheckpoint.links_of_valid fun trailer same => ⟨1024, Option.some.inj same ▸ closed⟩
  obtain ⟨image, second, whole, agree, last, linked, parsed⟩ :=
    @PendingCheckpoint.exists_longer 512 (some first) [⟨[0x61], none⟩, ⟨[0x62], some [0x32]⟩] front 1536 (by decide)
      (by rw [size]; decide) links (by decide) (by decide) (by rw [size]; decide) (by decide)
  rw [blank] at held
  rw [size] at agree parsed
  have before := (Trailer.readEndingAt_agree agree (Nat.le_refl 1024)).symm.trans read
  replace held := (blocks_of_read_agree agree (Nat.le_refl 1024) read).symm.trans held
  have back : second.previousCheckpoint = 1024 := linked.trans (stop_of_read read).1
  have walk : Walk image 512 1536 [second, first] :=
    .step last (back ▸ .step before (show Walk image 512 first.previousCheckpoint [] from oldest ▸ .header))
  have logs : logOf image [first, second] = .ok
      [⟨first, 512, ⟨[0x61], some [0x31]⟩⟩, ⟨second, 1024, ⟨[0x61], none⟩⟩, ⟨second, 1042, ⟨[0x62], some [0x32]⟩⟩] :=
    logOf_cons_ok_iff.mpr ⟨_, _, held, logOf_cons_ok_iff.mpr ⟨_, _, parsed, rfl, rfl⟩, rfl⟩
  obtain ⟨index, built⟩ : ∃ index, build image 512 1536 = .ok index := by
    rw [build_of_walk walk, applyAll_eq_replay]
    exact ⟨_, congrArg (Except.map _) logs⟩
  obtain ⟨replays, applies, depends⟩ := build_is_last_writer_wins image 512 1536
  obtain ⟨-, trailers, log, walked, logged, keys⟩ := replays index built
  obtain rfl := Except.ok.inj (walked.symm.trans (chain_ok_iff.mpr walk))
  obtain rfl := Except.ok.inj (logged.symm.trans logs)
  have removed : LastFor [0x61] _ ⟨second, 1024, ⟨[0x61], none⟩⟩ :=
    ⟨[⟨first, 512, ⟨[0x61], some [0x31]⟩⟩], [⟨second, 1042, ⟨[0x62], some [0x32]⟩⟩], rfl, rfl, by simp [Logged.key]⟩
  have written : LastFor [0x62] _ ⟨second, 1042, ⟨[0x62], some [0x32]⟩⟩ :=
    ⟨[⟨first, 512, ⟨[0x61], some [0x31]⟩⟩, ⟨second, 1024, ⟨[0x61], none⟩⟩], [], rfl, rfl, nofun⟩
  have gone : index.get? [0x61] = none := by
    refine Option.eq_none_iff_forall_ne_some.mpr fun entry found => ?_
    obtain ⟨other, again, document⟩ := (keys [0x61]).1.mp ⟨entry, found⟩
    obtain rfl := removed.unique again
    exact absurd (show BlockKind.tombstone = .document from document) (by decide)
  obtain ⟨entry, found⟩ := (keys [0x62]).1.mpr ⟨_, written, rfl⟩
  obtain ⟨other, again, located, -⟩ := (keys [0x62]).2 entry found
  obtain rfl := written.unique again
  have value : entry.value image = [0x32] := (Option.some.inj located.document).symm
  have checkpoint : entry.checkpoint = 1536 := located.checkpoint.trans (stop_of_read last).1
  have longer := Image.agree_append image (.ofBytes [0xFF])
  rw [whole] at longer
  have kept := depends _ longer.left longer.right longer.same
  exact ⟨image, index, second, entry, built, last, back ▸ applies second last, gone, found, value, checkpoint,
    kept.symm.trans built⟩

end LiveIndex
end CheckpointStore
