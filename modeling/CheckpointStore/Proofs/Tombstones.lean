import CheckpointStore.Proofs.Identifiers
import CheckpointStore.Proofs.Slots

/-!
# Tombstones

Only what is committed is ever staged for removal, and a document under edit that was not changed is the
committed one. So a checkpoint changes each of its keys once, in key order, and has a tombstone only for
a key that was live at the checkpoint before.
-/

namespace CheckpointStore

namespace Slot

/-- A removal is of something committed, and a document that was not changed is the committed one. -/
structure Warranted (slot : Slot) : Prop where
  removed : slot.staged = some .removed → slot.committed.isSome = true
  unchanged : ∀ document, slot.staged = some (.editable document) → document.changed = false →
    ∃ bytes, slot.committed = some bytes ∧ Value.decode bytes = .ok document.value

variable {slot : Slot}

theorem warranted_bare (committed : Option Bytes) : Warranted ⟨committed, none⟩ := ⟨nofun, nofun⟩

theorem Warranted.handed (warranted : slot.Warranted) {document : EditableDocument} (handed : slot.Handed document)
    (unchanged : document.changed = false) :
    ∃ bytes, slot.committed = some bytes ∧ Value.decode bytes = .ok document.value := by
  cases handed with
  | again staged => exact warranted.unchanged document staged unchanged
  | put staged read marked =>
    -- a staged value is handed out as changed
    subst marked
    contradiction
  | committed bare committed read => exact ⟨_, committed, (Handle.editableOf_ok_iff.mp read).1⟩

theorem Warranted.put (warranted : slot.Warranted) (value : Bytes) (mode : PutMode) :
    (slot.put value mode).2.Warranted := by
  dsimp only [Slot.put]
  split
  · exact ⟨nofun, nofun⟩
  · exact warranted

theorem Warranted.act (warranted : slot.Warranted) (operation : KeyOperation) : (slot.act operation).2.Warranted := by
  cases operation with
  | put value mode => exact warranted.put value mode
  | putDocument document mode => exact warranted.put document.encode mode
  | remove =>
    dsimp only [Slot.act]
    split
    · split
      · rename_i committed
        exact ⟨fun _ => committed, nofun⟩
      · exact warranted_bare _
    · exact warranted
  | edit edits =>
    dsimp only [Slot.act]
    split
    · exact warranted
    · exact warranted
    · rename_i document taken
      refine ⟨nofun, fun edited staged unchanged => ?_⟩
      obtain rfl := Pending.editable.inj (Option.some.inj staged)
      have same := EditableDocument.foldl_of_unchanged unchanged
      rw [same] at unchanged ⊢
      exact warranted.handed (handed_of_document? taken) unchanged

end Slot

namespace Handle

variable {handle : Handle} {changes : List Change}

/-- The checkpoint that a handle has advanced past is read from its image, with its changes as blocks. -/
theorem Grounded.newest_advanced (grounded : handle.Grounded) (count : changes.length < PendingCheckpoint.countLimit)
    (fit : ∀ change ∈ changes, change.Fits) (addressable : (handle.advanced changes).image.size < 256 ^ 8) :
    ∃ trailer blocks,
      Trailer.readEndingAt (handle.advanced changes).image (handle.advanced changes).checkpoint handle.pageSize
          = .ok trailer ∧
        trailer.previousCheckpoint = handle.checkpoint ∧
        trailer.blocks (handle.advanced changes).image = .ok blocks ∧ blocks.map Block.change = changes := by
  obtain ⟨read, parsed⟩ := grounded.read_advanced count fit addressable
  exact ⟨_, _, read, (grounded.linked changes).1, parsed, Block.map_change_place _ _⟩

/-- Behind an appended checkpoint, the one before it is viewed with the keys that were committed then. -/
theorem Grounded.viewAt_advanced (grounded : handle.Grounded) (advanced : (handle.advanced changes).Grounded) :
    ∃ view, ((handle.advanced changes).viewAt handle.checkpoint).result = .ok view ∧ view.SameReadings handle.viewed := by
  have begun : handle.image.bytes <+: (handle.advanced changes).image.bytes := by
    show _ <+: (handle.image ++ Image.ofBytes _).bytes
    rw [Image.bytes_append]
    exact List.prefix_append _ _
  have before : handle.viewed.Charted := grounded.charted.of_same rfl rfl rfl rfl rfl
  obtain ⟨view, viewed, charted, image, header, checkpoint, bare⟩ :
      ∃ view, ((handle.advanced changes).viewAt handle.checkpoint).result = .ok view ∧ view.Charted ∧
        view.image = (handle.advanced changes).image ∧ view.header = handle.header ∧
        view.checkpoint = handle.checkpoint ∧ view.staged = KeyMap.empty := by
    by_cases fresh : handle.checkpoint = 0
    · rw [fresh]
      exact viewAt_zero _
    · refine advanced.charted.viewAt_of_mem (List.mem_reverse.mpr ?_)
      exact List.mem_append_left _ (List.mem_reverse.mp (grounded.charted.checkpoint_mem fresh))
  exact ⟨view, viewed, charted.sameReadings before (image ▸ begun) header checkpoint bare rfl⟩

end Handle

namespace Session

open Handle MemoryStore

variable {session after : Session} {answer : Answer}

theorem Opened.staged (opened : Opened session) : session.handle.staged = KeyMap.empty := by
  obtain ⟨loaded⟩ := opened
  exact congrArg Handle.staged (of_load loaded).2.2

/-- What holds of slots without a staged change, and is kept by all that is done under a key, holds under
every key of every session. -/
theorem Reachable.every {holds : Slot → Prop} (bare : ∀ committed, holds ⟨committed, none⟩)
    (kept : ∀ slot operation, holds slot → holds (slot.act operation).2) (reachable : session.Reachable)
    (addressable : session.handle.image.size < 256 ^ 8) (key : Bytes) : holds (session.handle.slot key) := by
  induction reachable generalizing key with
  | opened opened => exact every_of_staged_empty bare opened.staged key
  | step before operation ih =>
    -- no step makes an image shorter
    have between := Nat.lt_of_le_of_lt (size_mono (image_of_moved (step_moved before.sound operation))) addressable
    exact every_step bare (fun _ staging _ slot => kept slot staging)
      (fun writable => ((before.kept between).valid writable).grounded) (ih between) addressable key
  | view before viewed ih => exact every_of_staged_empty bare (viewAt_frame viewed).2.1 key

theorem Reachable.warranted (reachable : session.Reachable) (addressable : session.handle.image.size < 256 ^ 8)
    (key : Bytes) : (session.handle.slot key).Warranted :=
  reachable.every Slot.warranted_bare (fun _ operation warranted => warranted.act operation) addressable key

/-- A commit that is answered with a new identifier has advanced past what was staged. -/
theorem Kept.advanced_of_new (kept : session.Kept) (stepped : session.step .commit = (answer, after))
    (new : session.appends .commit = true) (addressable : after.handle.image.size < 256 ^ 8) :
    ∃ pending, Attempted session.handle pending ∧
      after.handle = session.handle.advanced session.handle.staged.changes ∧ after.store.image = after.handle.image := by
  have outcome := commit_outcome session.handle session.store
  rw [appends_commit] at new
  obtain ⟨-, rfl⟩ := Prod.mk.inj stepped
  dsimp only at addressable ⊢
  generalize commit device session.handle session.store = pair at *
  obtain ⟨committed, store⟩ := pair
  dsimp only at outcome new addressable ⊢
  cases outcome with
  | refused events cause => contradiction
  | skipped events writable healthy nothing => simp [Answer.ofCommit, Answer.isNew] at new
  | appended attempted image =>
    have valid := kept.valid attempted.writable
    obtain ⟨same, -, -⟩ := advance_of_attempted valid.grounded attempted addressable
    refine ⟨_, attempted, same, ?_⟩
    rw [image, image_advance, valid.stored attempted.healthy]
  | cut events attempted split image => contradiction
  | stuck events attempted split image => contradiction

/-- In every session what is staged for removal is committed, and a document that was not changed is the
committed one. So the blocks of a checkpoint that a commit appends have ascending keys, and the key of each
tombstone was live at the checkpoint before. -/
theorem staged_changes_are_warranted (reachable : session.Reachable) (addressable : session.handle.image.size < 256 ^ 8) :
    (∀ key, session.handle.staged.get? key = some .removed → session.handle.index.contains key = true) ∧
      (∀ key document, session.handle.staged.get? key = some (.editable document) → document.changed = false →
        session.handle.index.contains key = true ∧
          ∃ bytes, session.handle.committed? key = some bytes ∧ Value.decode bytes = .ok (.object document.fields)) ∧
      ∀ answer after, session.step .commit = (answer, after) → session.appends .commit = true →
        after.handle.image.size < 256 ^ 8 →
        ∃ trailer blocks view,
          Trailer.readEndingAt after.store.image after.handle.checkpoint after.handle.pageSize = .ok trailer ∧
            trailer.blocks after.store.image = .ok blocks ∧ blocks.map Block.change = session.handle.staged.changes ∧
            (blocks.map fun block => block.change.key).Pairwise (· < ·) ∧
            trailer.previousCheckpoint = session.handle.checkpoint ∧
            (after.handle.viewAt trailer.previousCheckpoint).result = .ok view ∧
            ∀ block ∈ blocks, block.change.value = none → view.contains block.change.key = true := by
  have warranted := reachable.warranted addressable
  have removed (key : Bytes) (staged : session.handle.staged.get? key = some .removed) :
      session.handle.index.contains key = true := by
    rw [index_contains_slot]
    exact (warranted key).removed staged
  refine ⟨removed, fun key document staged unchanged => ?_, fun answer after stepped new room => ?_⟩
  · obtain ⟨bytes, committed, decoded⟩ := (warranted key).unchanged document staged unchanged
    exact ⟨index_contains_iff.mpr ⟨bytes, committed⟩, bytes, committed, decoded⟩
  · have kept := reachable.kept addressable
    obtain ⟨pending, attempted, same, stored⟩ := kept.advanced_of_new stepped new room
    have grounded := (kept.valid attempted.writable).grounded
    obtain ⟨count, fit, -⟩ := attempted_spec attempted
    rw [same] at room
    obtain ⟨trailer, blocks, read, previous, parsed, changes⟩ := grounded.newest_advanced count fit room
    obtain ⟨view, viewed, reads⟩ := grounded.viewAt_advanced (grounded_advanced grounded count fit room)
    rw [stored, same]
    refine ⟨trailer, blocks, view, read, parsed, changes, ?_, previous, by rw [previous]; exact viewed, ?_⟩
    · have ascending := session.handle.staged.ascending_changes
      rw [← changes, List.map_map] at ascending
      exact ascending
    · intro block mem tombstone
      have written : (⟨block.change.key, none⟩ : Change) ∈ session.handle.staged.changes := by
        rw [← changes, ← tombstone]
        exact List.mem_map_of_mem mem
      obtain ⟨pending, staged, wrote⟩ := Staging.mem_changes_iff.mp written
      rw [reads.contains]
      exact reachable.sound _ pending staged (by rw [wrote]; rfl)

/-- The one document of a database is removed, and the second checkpoint says so. -/
theorem removed_document_was_live :
    ∃ (session after : Session) (trailer : Trailer) (blocks : List Block) (view : Handle),
      session = (create { pageSize := 512 } {}).run [.put [0x61] [0x31] .upsert, .commit, .remove [0x61]] ∧
      session.handle.index.contains [0x61] = true ∧ session.step .commit = (.committed 1536, after) ∧
      trailer.blocks after.store.image = .ok blocks ∧ blocks.map Block.change = [⟨[0x61], none⟩] ∧
      (after.handle.viewAt 1024).result = .ok view ∧ view.contains [0x61] = true := by
  obtain ⟨handle, store, ran, faultless, grounded, writable, healthy, bare, image, checkpoint, page, committed⟩ :=
    one_committed (show Change.Fits ⟨[0x61], some [0x31]⟩ by decide) (by decide)
  have reachable : ((create { pageSize := 512 } {}).run
      [.put [0x61] [0x31] .upsert, .commit, .remove [0x61]]).Reachable :=
    (Reachable.opened (opened_create rfl rfl rfl rfl)).run _
  rw [show [Operation.put [0x61] [0x31] .upsert, .commit, .remove [0x61]]
    = [.put [0x61] [0x31] .upsert, .commit] ++ [.remove [0x61]] from rfl, run_append, ran, run,
    step_remove writable (index_contains_iff.mpr ⟨_, committed [0x61]⟩) (by rw [bare, KeyMap.get?_empty]), run, bare]
    at reachable ⊢
  generalize held : handle.restaged (KeyMap.empty.insert [0x61] .removed) = next at reachable ⊢
  have changes : next.staged.changes = [⟨[0x61], none⟩] := by
    rw [← held]
    exact Staging.changes_insert_empty [0x61] rfl
  have founded : next.Grounded := held ▸ grounded.of_same rfl rfl rfl rfl rfl
  have before : next.image.size = 1024 := held ▸ image
  have room : roundUp (next.image.size + (Change.encode ⟨[0x61], none⟩).length + 40) next.pageSize = 1536 := by
    rw [before, show next.pageSize = 512 from held ▸ page]
    decide
  obtain ⟨left, stepped, stop⟩ := @step_commit_of_change ⟨next, store⟩ _ founded (held ▸ writable) (held ▸ healthy) changes
    (by decide) faultless (lt_of_eq_of_lt room (by decide))
  rw [room] at stepped stop
  have appended : (⟨next, store⟩ : Session).appends .commit = true := by
    rw [appends, stepped, show (⟨next, store⟩ : Session).handle.checkpoint = 1024 from held ▸ checkpoint]
    rfl
  obtain ⟨removed, -, commits⟩ := staged_changes_are_warranted reachable (by dsimp only; omega)
  obtain ⟨trailer, blocks, view, -, parsed, blocksOf, -, previous, viewed, live⟩ :=
    commits _ _ stepped appended (lt_of_eq_of_lt stop (by decide))
  rw [show (⟨next, store⟩ : Session).handle.checkpoint = 1024 from held ▸ checkpoint] at previous
  rw [previous] at viewed
  replace blocksOf := blocksOf.trans changes
  obtain ⟨block, rfl, change⟩ := List.map_eq_singleton_iff.mp blocksOf
  have hidden : next.staged.get? [0x61] = some .removed := by
    rw [← held]
    exact (KeyMap.get?_insert _ _ _ _).trans (if_pos rfl)
  refine ⟨⟨next, store⟩, _, trailer, [block], view, rfl, removed _ hidden, stepped, parsed, blocksOf, viewed, ?_⟩
  have kept := live block (List.mem_singleton.mpr rfl) (by rw [change])
  rwa [change] at kept

end Session
end CheckpointStore
