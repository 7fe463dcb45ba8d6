import CheckpointStore.Proofs.Identifiers
import CheckpointStore.Proofs.Scans

/-!
# Loading what was laid out

A checkpoint that is built at the end of any file that loads is what loading the longer file finds: to
the end, with its changes in order and the old chain behind it. So a commit whose bytes were appended
has nothing left that can fail.
-/

namespace CheckpointStore

theorem LiveIndex.exists_apply {image : Image} {trailer : Trailer} {blocks : List Block}
    (parsed : trailer.blocks image = .ok blocks) (index : LiveIndex) : ∃ next, index.apply image trailer = .ok next := by
  unfold apply
  rw [parsed]
  exact ⟨_, rfl⟩

namespace Session

open Handle MemoryStore

variable {session : Session} {pending : PendingCheckpoint}

/-- Once its bytes are appended, a commit is answered with the new end of the file. -/
theorem Reachable.commit_of_appended (reachable : session.Reachable) (attempted : Attempted session.handle pending)
    (addressable : (session.handle.image ++ Image.ofBytes pending.bytes).size < 256 ^ 8)
    (appended : (appendCheckpoint device session.handle.settings.syncOnCommit pending session.store).1 = .ok ()) :
    (session.step .commit).1 = .committed (session.handle.image ++ Image.ofBytes pending.bytes).size := by
  rw [Image.size_append, Image.size_ofBytes] at addressable ⊢
  have valid := (reachable.kept (by omega)).valid attempted.writable
  rw [step_commit_of_appended valid.grounded attempted appended addressable]

/-- A handle that writes has the header and the current checkpoint that loading its image finds. -/
theorem Reachable.load (reachable : session.Reachable) (writable : session.handle.access = .write)
    (addressable : session.handle.image.size < 256 ^ 8) {layout : Layout}
    (loaded : Layout.load session.handle.image = .ok layout) :
    session.handle.header = layout.header ∧ session.handle.current = layout.current := by
  have valid := (reachable.kept addressable).valid writable
  obtain ⟨again, reloaded, header, current⟩ := valid.grounded.load
  obtain rfl := Except.ok.inj (loaded.symm.trans reloaded)
  exact ⟨header.symm, current.symm⟩

end Session

namespace Layout

open Session Handle MemoryStore

section Built

variable {image : Image} {layout : Layout} {changes : List Change} {pending : PendingCheckpoint}

/-- Built on the layout that loading an image found, a checkpoint follows the image's chain. -/
theorem Found.links (found : Found image layout) :
    PendingCheckpoint.Links image.size layout.header.pageSize layout.current :=
  PendingCheckpoint.links_of_valid fun trailer current => ⟨_, (found.current trailer current).valid⟩

theorem Found.pageSize_bounds (found : Found image layout) :
    0 < layout.header.pageSize ∧ layout.header.pageSize ≤ image.size := by
  obtain ⟨-, sized, page, -⟩ := Header.decode_ok_iff.mp found.header
  have bounds := pageSize_pos sized
  exact ⟨by omega, page⟩

theorem Found.checkpoint_le (found : Found image layout) :
    (layout.current.map Trailer.checkpointSize).getD 0 ≤ image.size := by
  cases current : layout.current with
  | none => exact Nat.zero_le _
  | some trailer => exact (found.links trailer current).2.1

theorem Found.size_built (found : Found image layout)
    (built : PendingCheckpoint.build image.size layout.header.pageSize layout.current changes = .ok pending) :
    (image ++ Image.ofBytes pending.bytes).size = pending.trailer.checkpointSize := by
  obtain ⟨-, -, rfl⟩ := PendingCheckpoint.build_ok_iff.mp built
  rw [Image.size_append, Image.size_ofBytes, PendingCheckpoint.size_laidOut found.pageSize_bounds.1]

theorem Found.read_built (found : Found image layout)
    (built : PendingCheckpoint.build image.size layout.header.pageSize layout.current changes = .ok pending)
    (addressable : pending.trailer.checkpointSize < 256 ^ 8) :
    Trailer.readEndingAt (image ++ Image.ofBytes pending.bytes) pending.trailer.checkpointSize layout.header.pageSize
        = .ok pending.trailer ∧
      pending.trailer.blocks (image ++ Image.ofBytes pending.bytes) = .ok (Block.place image.size changes) := by
  obtain ⟨count, fit, rfl⟩ := PendingCheckpoint.build_ok_iff.mp built
  obtain ⟨positive, page⟩ := found.pageSize_bounds
  exact PendingCheckpoint.read_laidOut positive page found.links count fit addressable

/-- Loading finds what was built to the end of the longer file, with nothing behind it. -/
theorem Found.load_built (found : Found image layout)
    (built : PendingCheckpoint.build image.size layout.header.pageSize layout.current changes = .ok pending)
    (addressable : pending.trailer.checkpointSize < 256 ^ 8) :
    load (image ++ Image.ofBytes pending.bytes)
      = .ok ⟨layout.header, some pending.trailer, pending.trailer.checkpointSize, none⟩ := by
  obtain ⟨read, parsed⟩ := found.read_built built addressable
  have whole := found.size_built built
  have decoded :=
    Header.decode_agree (Image.agree_append image (.ofBytes pending.bytes)) found.header found.pageSize_bounds.2
  have newest := newest_of_whole (whole ▸ validateCheckpoint_ok_iff.mpr ⟨read, _, parsed⟩)
  rw [load_of_newest_exactly decoded newest, (firstFailure_eq_none_iff newest).mpr whole.symm, whole]
  rfl

/-- The chain goes on from what was built as it did from the checkpoint before. -/
theorem Found.chain_built (found : Found image layout)
    (built : PendingCheckpoint.build image.size layout.header.pageSize layout.current changes = .ok pending)
    (addressable : pending.trailer.checkpointSize < 256 ^ 8) :
    chain (image ++ Image.ofBytes pending.bytes) layout.header.pageSize pending.trailer.checkpointSize
      = (chain image layout.header.pageSize ((layout.current.map Trailer.checkpointSize).getD 0)).map
          (pending.trailer :: ·) := by
  have read := (found.read_built built addressable).1
  have back : pending.trailer.previousCheckpoint = (layout.current.map Trailer.checkpointSize).getD 0 := by
    obtain ⟨-, -, rfl⟩ := PendingCheckpoint.build_ok_iff.mp built
    exact (PendingCheckpoint.linked_laidOut found.pageSize_bounds.1 found.links).1
  rw [chain_of_read read, back, chain_agree (Image.agree_append image _) found.checkpoint_le]

end Built

/-- A checkpoint of any changes within the limits can be built behind any file that loads. Loading finds
it to the end of the longer file, its blocks are the changes in order, and the chain goes on from it as
it did before. No index fails to take it up, and a commit that has appended it succeeds. -/
theorem built_checkpoint_loads {image : Image} {layout : Layout} {changes : List Change} (loaded : load image = .ok layout)
    (count : changes.length < PendingCheckpoint.countLimit) (fit : ∀ change ∈ changes, change.Fits) :
    ∃ pending, PendingCheckpoint.build image.size layout.header.pageSize layout.current changes = .ok pending ∧
      (image ++ Image.ofBytes pending.bytes).size = pending.trailer.checkpointSize ∧
      (pending.trailer.checkpointSize < 256 ^ 8 →
        load (image ++ Image.ofBytes pending.bytes)
          = .ok ⟨layout.header, some pending.trailer, pending.trailer.checkpointSize, none⟩ ∧
        (∃ blocks, pending.trailer.blocks (image ++ Image.ofBytes pending.bytes) = .ok blocks ∧
          blocks.map Block.change = changes) ∧
        chain (image ++ Image.ofBytes pending.bytes) layout.header.pageSize pending.trailer.checkpointSize
          = (chain image layout.header.pageSize ((layout.current.map Trailer.checkpointSize).getD 0)).map
              (pending.trailer :: ·) ∧
        (∀ index : LiveIndex, ∃ next, index.apply (image ++ Image.ofBytes pending.bytes) pending.trailer = .ok next) ∧
        ∀ session : Session, session.Reachable → session.handle.image = image →
          session.handle.staged.changes = changes → changes ≠ [] → session.handle.access = .write →
          session.handle.poisoned = false →
          (appendCheckpoint device session.handle.settings.syncOnCommit pending session.store).1 = .ok () →
          (session.step .commit).1 = .committed pending.trailer.checkpointSize) := by
  have found := found_of_load loaded
  obtain ⟨pending, built⟩ : ∃ pending,
      PendingCheckpoint.build image.size layout.header.pageSize layout.current changes = .ok pending :=
    ⟨_, PendingCheckpoint.build_ok_iff.mpr ⟨count, fit, rfl⟩⟩
  refine ⟨pending, built, found.size_built built, fun addressable => ?_⟩
  have parsed := (found.read_built built addressable).2
  refine ⟨found.load_built built addressable, ⟨_, parsed, Block.map_change_place _ _⟩,
    found.chain_built built addressable, LiveIndex.exists_apply parsed, ?_⟩
  rintro session reachable rfl rfl changed writable healthy appended
  have whole := found.size_built built
  have shorter : session.handle.image.size < 256 ^ 8 := by
    rw [Image.size_append] at whole
    omega
  obtain ⟨header, current⟩ := reachable.load writable shorter loaded
  rw [← header, ← current] at built
  rw [← whole] at addressable ⊢
  exact reachable.commit_of_appended ⟨writable, healthy, changed, built⟩ addressable appended

/-- A torn tail of 441 bytes stays where it is. The blocks behind it leave 19 bytes of their page, too few
for the trailer, which ends the next. The empty key comes three times. -/
theorem built_checkpoint_loads_behind_torn_tail :
    ∃ image layout pending, image.size = 953 ∧ load image = .ok layout ∧
      layout.damage = some ⟨512, 953, .trailingBytes 441⟩ ∧
      PendingCheckpoint.build 953 512 none [⟨[], some [0x31]⟩, ⟨[], none⟩, ⟨[], none⟩] = .ok pending ∧
      pending.trailer.checkpointSize = 1536 ∧
      load (image ++ Image.ofBytes pending.bytes) = .ok ⟨layout.header, some pending.trailer, 1536, none⟩ ∧
      chain (image ++ Image.ofBytes pending.bytes) 512 1536 = .ok [pending.trailer] ∧
      ∃ blocks, pending.trailer.blocks (image ++ Image.ofBytes pending.bytes) = .ok blocks ∧
        blocks.map Block.change = [⟨[], some [0x31]⟩, ⟨[], none⟩, ⟨[], none⟩] := by
  obtain ⟨image, whole, decoded⟩ : ∃ image : Image, image.size = 953 ∧
      Header.decode image = .ok (Header.ofPageSize 512) := by
    have fresh : (new { pageSize := 512 }).Grounded := grounded_new rfl
    refine ⟨newImage { pageSize := 512 } ++ .ofBytes (Bytes.zeros 441), ?_, (fresh.parts_behind _).1⟩
    rw [Image.size_append, size_newImage, Image.size_ofBytes, Bytes.length_zeros]
  have loaded := load_of_one_page decoded (by rw [whole]; decide)
  rw [whole] at loaded
  have fit : ∀ change ∈ [⟨[], some [0x31]⟩, ⟨[], none⟩, ⟨[], none⟩], Change.Fits change := by decide
  obtain ⟨pending, built, -, found⟩ := built_checkpoint_loads loaded (by decide) fit
  rw [whole] at built
  have ends : pending.trailer.checkpointSize = 1536 := by
    obtain ⟨-, -, rfl⟩ := PendingCheckpoint.build_ok_iff.mp built
    decide
  obtain ⟨again, parsed, walked, -⟩ := found (ends ▸ by decide)
  rw [ends] at again walked
  refine ⟨image, _, pending, whole, loaded, rfl, built, ends, again, walked.trans ?_, parsed⟩
  exact congrArg (Except.map _) chain_zero

end Layout
end CheckpointStore
