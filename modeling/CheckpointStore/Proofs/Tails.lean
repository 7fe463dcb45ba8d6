import CheckpointStore.Proofs.Leftovers
import CheckpointStore.Proofs.Refusals

/-!
# Bytes behind a committed file

A file that opened with a checkpoint has bytes put behind it. Some checkpoint is then the newest, and
it is no older. The scan takes a boundary for one on its own trailer and blocks alone, so its chain
may still lead nowhere: such a file is refused, and every other one opens.
-/

namespace CheckpointStore

theorem exists_newest {image : Image} {pageSize stop : Nat} {trailer : Trailer}
    (valid : validateCheckpoint image stop pageSize = .ok trailer) :
    ∃ newest, Newest image pageSize newest ∧ stop ≤ newest.checkpointSize := by
  -- the boundaries that are left above grow fewer
  induction left : image.size - stop using Nat.strongRecOn generalizing stop trailer with
  | ind left ih =>
    obtain ⟨ends, -, inside, -⟩ := stop_of_valid valid
    by_cases last : ∀ later other, validateCheckpoint image later pageSize = .ok other → later ≤ stop
    · refine ⟨trailer, ⟨by rw [ends]; exact valid, ?_⟩, Nat.le_of_eq ends.symm⟩
      rw [ends]
      exact last
    · push Not at last
      obtain ⟨later, other, above, past⟩ := last
      have within := (stop_of_valid above).2.2.1
      obtain ⟨newest, found, behind⟩ := ih (image.size - later) (by omega) above rfl
      exact ⟨newest, found, by omega⟩

theorem newest_of_whole {image : Image} {pageSize : Nat} {trailer : Trailer}
    (valid : validateCheckpoint image image.size pageSize = .ok trailer) : Newest image pageSize trailer := by
  refine ⟨?_, fun stop later other => ?_⟩
  · rw [(stop_of_valid valid).1]
    exact valid
  · rw [(stop_of_valid valid).1]
    exact (stop_of_valid other).2.2.1

/-- A checkpoint whose trailer names one before it that cannot be read is not replayed. -/
theorem build_of_broken_link {image : Image} {pageSize stop : Nat} {trailer : Trailer} {error : StorageError}
    (read : Trailer.readEndingAt image stop pageSize = .ok trailer) (linked : trailer.previousCheckpoint ≠ 0)
    (broken : Trailer.readEndingAt image trailer.previousCheckpoint pageSize = .error error) :
    LiveIndex.build image pageSize stop = .error error := by
  have walked : chain image pageSize trailer.previousCheckpoint = .error error := by
    rw [chain, if_neg linked, broken]
  rw [LiveIndex.build, chain_of_read read, walked]
  rfl

theorem readEndingAt_of_unmarked {image : Image} {pageSize stop : Nat} (above : pageSize + Trailer.size ≤ stop)
    (inside : stop ≤ image.size) (aligned : stop % pageSize = 0)
    (unmarked : image.slice (stop - Trailer.size) 8 ≠ Trailer.magic) :
    Trailer.readEndingAt image stop pageSize = .error (.checkpoint (stop - Trailer.size) .trailerMagic) := by
  unfold Trailer.readEndingAt
  dsimp only
  rw [if_neg (by omega), if_neg (not_not.mpr aligned), if_pos unmarked]

theorem readEndingAt_behind_zeros (image : Image) (zeros : Nat) {pageSize stop : Nat} {trailer : Trailer}
    (ends : stop = image.size + zeros + Trailer.size) (above : pageSize + Trailer.size ≤ stop)
    (aligned : stop % pageSize = 0) (fits : trailer.Fits) (placed : trailer.Placed stop pageSize) :
    Trailer.readEndingAt (image ++ .ofBytes (Bytes.zeros zeros ++ trailer.encode)) stop pageSize = .ok trailer := by
  refine Trailer.readEndingAt_ok_iff.mpr ⟨above, ?_, aligned, ?_, fits, placed⟩
  · rw [Image.size_append, Image.size_ofBytes, List.length_append, Bytes.length_zeros, Trailer.length_encode]
    omega
  · have found := Bytes.slice_append_right (Bytes.zeros zeros) trailer.encode 0 Trailer.size
    rw [Bytes.length_zeros, Bytes.slice_from_zero,
      List.take_of_length_le (Nat.le_of_eq trailer.length_encode), Nat.add_zero] at found
    rw [show stop - Trailer.size = image.size + zeros by omega, Image.slice_append_right, Image.slice_eq,
      Image.bytes_ofBytes]
    exact found

theorem slice_behind_of_zeros (image : Image) {zeros start length : Nat} (within : start + length ≤ zeros) (rest : Bytes) :
    (image ++ .ofBytes (Bytes.zeros zeros ++ rest)).slice (image.size + start) length = Bytes.zeros length := by
  rw [Image.slice_append_right, Image.slice_eq, Image.bytes_ofBytes, Bytes.slice_append_of_le (by simpa using within),
    Bytes.slice, Bytes.zeros, List.drop_replicate, List.take_replicate, Nat.min_eq_left (by omega), Bytes.zeros]

namespace Handle

open MemoryStore

variable {handle : Handle} {store : MemoryStore} {mode : OpenMode} {settings : Settings}

/-- An image whose newest checkpoint cannot be replayed is refused as its chain is. -/
theorem ofImage_of_unbuilt {image : Image} {header : Header} {trailer : Trailer} {error : StorageError}
    (decoded : Header.decode image = .ok header) (newest : Newest image header.pageSize trailer)
    (unbuilt : LiveIndex.build image header.pageSize trailer.checkpointSize = .error error) (mode : OpenMode)
    (settings : Settings) (location : String) : ofImage image mode settings location = .error error := by
  obtain ⟨layout, loaded, rfl, current⟩ := Layout.load_of_newest decoded newest
  have stop : (layout.current.map Trailer.checkpointSize).getD 0 = trailer.checkpointSize := by
    rw [current]
    rfl
  unfold ofImage
  simp only [loaded, stop]
  cases walked : chain image layout.header.pageSize trailer.checkpointSize with
  | error cause =>
    rw [LiveIndex.build, walked] at unbuilt
    obtain rfl := Except.error.inj unbuilt
    rfl
  | ok trailers => simp only [unbuilt]

theorem readImage_cases {image : Image} (read : (readImage device mode settings store).1 = .ok image) :
    image = store.image ∨ image = newImage settings := by
  unfold readImage at read
  simp only [run_bind] at read
  cases answered : (device.readAll store).1 with
  | error error => simp [answered, run_pure] at read
  | ok found =>
    have same : store.image = found := (answer_ok_iff.mp answered).2
    simp only [answered] at read
    split at read
    · right
      cases appended : (device.append (newImage settings).bytes (device.readAll store).2).1 with
      | error error => simp [appended, run_bind, run_pure] at read
      | ok done =>
        cases synced : (device.sync (device.append (newImage settings).bytes (device.readAll store).2).2).1 with
        | error error => simp [appended, synced, run_bind, run_pure] at read
        | ok done =>
          simp only [appended, synced, run_bind, run_pure] at read
          exact (Except.ok.inj read).symm
    · left
      exact (same.trans (Except.ok.inj read)).symm

/-- A checkpoint is found in the bytes that the store had, for a new file has none. -/
theorem image_of_committed (opened : (load device mode settings store).1.result = .ok handle)
    (committed : handle.checkpoint ≠ 0) : handle.Grounded ∧ handle.image = store.image := by
  obtain ⟨-, grounded, -⟩ := of_load opened
  refine ⟨grounded, ?_⟩
  unfold load at opened
  cases valid : settings.validate with
  | error error => simp [valid, run_pure, openFailure] at opened
  | ok done =>
    simp only [valid, run_bind] at opened
    cases read : (readImage device mode settings store).1 with
    | error error => simp [read, run_pure, openFailure] at opened
    | ok image =>
      simp only [read] at opened
      cases made : ofImage image mode settings device.location with
      | error error => simp [made, run_pure, openFailure] at opened
      | ok pair =>
        simp only [made, run_pure] at opened
        obtain rfl := Except.ok.inj opened
        have same := (grounded_of_ofImage made).2.1
        rcases readImage_cases read with held | fresh
        · exact same.trans held
        · obtain ⟨-, current, -, -⟩ := (grounded_new valid).unique grounded (same.trans fresh)
          exact absurd (checkpoint_of_fresh current) committed

section Behind

variable {rest : Image}

/-- What is found of a committed image with bytes behind it has a checkpoint, one no older. -/
theorem Grounded.later_of_behind (grounded : handle.Grounded) (committed : handle.checkpoint ≠ 0) {fresh : Handle}
    (found : fresh.Grounded) (image : fresh.image = handle.image ++ rest) :
    ∃ trailer, fresh.current = some trailer ∧ Newest (handle.image ++ rest) handle.pageSize trailer ∧
      handle.checkpoint ≤ trailer.checkpointSize := by
  have page := pageSize_of_image_append grounded found image
  have bounds := grounded.pageSize_bounds
  obtain ⟨current, here⟩ := grounded.current_of_committed committed
  have kept : validateCheckpoint (handle.image ++ rest) current.checkpointSize handle.pageSize = .ok current :=
    (Grounded.validate_behind _ (grounded.checkpoint_bounds here).2.1).trans (grounded.current current here).valid
  cases there : fresh.current with
  | none =>
    have one := found.fresh there
    rw [image, page] at one
    obtain ⟨index, -, many, inside⟩ := page_of_valid (by omega) kept
    omega
  | some trailer =>
    have newest := found.current trailer there
    rw [image, page] at newest
    rw [checkpoint_of_current here]
    exact ⟨trailer, rfl, newest, newest.newest _ _ kept⟩

theorem opens_later_iff (grounded : handle.Grounded) (committed : handle.checkpoint ≠ 0) :
    Opens (handle.image ++ rest) (fun fresh _ => handle.checkpoint ≤ fresh.checkpoint) ↔
      (∀ stop trailer, handle.image.size < stop →
          validateCheckpoint (handle.image ++ rest) stop handle.pageSize ≠ .ok trailer) ∨
        Overtaken (handle.image ++ rest) handle.pageSize handle.image.size := by
  have bounds := grounded.pageSize_bounds
  constructor
  · intro opens
    obtain ⟨fresh, -, found, image, -⟩ := opens.exists_grounded (by rw [Image.size_append]; omega)
    obtain ⟨trailer, current, newest, -⟩ := grounded.later_of_behind committed found image
    have index := found.index
    rw [checkpoint_of_current current, image, pageSize_of_image_append grounded found image] at index
    rcases Nat.lt_or_ge handle.image.size trailer.checkpointSize with past | inside
    · exact .inr ⟨trailer, _, newest, past, index⟩
    · refine .inl fun stop later above valid => ?_
      have below := newest.newest stop later valid
      omega
  · rintro (refused | ⟨trailer, index, newest, past, built⟩)
    · exact ((opens_behind_iff grounded committed rest).mpr refused).mono fun fresh _ held =>
        Nat.le_of_eq held.1.symm
    · obtain ⟨found, whole, image, checkpoint⟩ := grounded_of_newest (grounded.parts_behind rest).1 newest built
      have before := grounded.checkpoint_le
      rw [← image]
      refine opens_of_grounded whole fun mode settings location after same faultless => ?_
      show handle.checkpoint ≤ found.checkpoint
      omega

/-- What does not open so is refused in every mode, as the chain of its newest checkpoint is. -/
theorem refused_later (grounded : handle.Grounded) (committed : handle.checkpoint ≠ 0)
    (closed : ¬ Opens (handle.image ++ rest) fun fresh _ => handle.checkpoint ≤ fresh.checkpoint) :
    ∃ trailer error, Newest (handle.image ++ rest) handle.pageSize trailer ∧ handle.image.size < trailer.checkpointSize ∧
      LiveIndex.build (handle.image ++ rest) handle.pageSize trailer.checkpointSize = .error error ∧
      error.severity = .fatal ∧
      ∀ mode settings, settings.validate = .ok () →
        (load device mode settings { image := handle.image ++ rest }).1.result = .error (.storage error) := by
  have bounds := grounded.pageSize_bounds
  rw [opens_later_iff grounded committed, not_or] at closed
  obtain ⟨some, replayed⟩ := closed
  push Not at some
  obtain ⟨stop, other, past, valid⟩ := some
  obtain ⟨trailer, newest, above⟩ := exists_newest valid
  have behind := Nat.lt_of_lt_of_le past above
  cases unbuilt : LiveIndex.build (handle.image ++ rest) handle.pageSize trailer.checkpointSize with
  | ok index => exact absurd ⟨trailer, index, newest, behind, unbuilt⟩ replayed
  | error error =>
    have faultless : MemoryStore.Faultless { image := handle.image ++ rest } := rfl
    have filled : 0 < (handle.image ++ rest).size := by
      rw [Image.size_append]
      omega
    refine ⟨trailer, error, newest, behind, unbuilt, LiveIndex.fatal_build _ _ _ _ unbuilt, fun mode settings valid => ?_⟩
    rw [result_load mode faultless filled valid, ofImage_of_unbuilt (grounded.parts_behind rest).1 newest unbuilt]
    rfl

end Behind

/-- Bytes put behind an image that opened with a checkpoint leave it to open with one no older, exactly
where they close no valid checkpoint or the newest that they close has a chain that is replayed.
Whatever opens is no older, and every opening of what does not open so is refused as that chain is. -/
theorem tail_opens_iff {image : Image} (opened : (load device mode settings { image }).1.result = .ok handle)
    (committed : handle.checkpoint ≠ 0) (tail : Image) :
    (Opens (image ++ tail) (fun fresh _ => handle.checkpoint ≤ fresh.checkpoint) ↔
        (∀ stop trailer, image.size < stop → validateCheckpoint (image ++ tail) stop handle.pageSize ≠ .ok trailer) ∨
          Overtaken (image ++ tail) handle.pageSize image.size) ∧
      (∀ later accepted fresh, (load device later accepted { image := image ++ tail }).1.result = .ok fresh →
        handle.checkpoint ≤ fresh.checkpoint) ∧
      (¬ Opens (image ++ tail) (fun fresh _ => handle.checkpoint ≤ fresh.checkpoint) →
        ∃ trailer error, Newest (image ++ tail) handle.pageSize trailer ∧ image.size < trailer.checkpointSize ∧
          LiveIndex.build (image ++ tail) handle.pageSize trailer.checkpointSize = .error error ∧ error.severity = .fatal ∧
          ∀ later accepted, accepted.validate = .ok () →
            (load device later accepted { image := image ++ tail }).1.result = .error (.storage error)) := by
  obtain ⟨grounded, same⟩ := image_of_committed opened committed
  replace same : handle.image = image := same
  subst same
  have bounds := grounded.pageSize_bounds
  have filled : 0 < (handle.image ++ tail).size := by
    rw [Image.size_append]
    omega
  refine ⟨opens_later_iff grounded committed, ?_, refused_later grounded committed⟩
  intro later accepted fresh found
  obtain ⟨stored, whole, -⟩ := of_load found
  have held := stored.symm.trans (image_load { image := handle.image ++ tail } later accepted filled)
  obtain ⟨trailer, current, -, behind⟩ := grounded.later_of_behind committed whole held
  rw [checkpoint_of_current current]
  exact behind

end Handle

namespace Session

open Handle MemoryStore

theorem one_document :
    ∃ image handle,
      image = ((create { pageSize := 512 } {}).run [.put [0x61] [0x31] .upsert, .commit]).handle.image ∧
      (load device .readOnly {} { image }).1.result = .ok handle ∧
      handle.Grounded ∧ handle.image = image ∧ image.size = 1024 ∧ handle.checkpoint = 1024 ∧ handle.pageSize = 512 := by
  have valid : Settings.validate { pageSize := 512 } = .ok () := rfl
  have fits : Change.Fits ⟨[0x61], some [0x31]⟩ := by decide
  have room : roundUp (512 + (17 + [(0x61 : UInt8)].length + [(0x31 : UInt8)].length) + 40) 512 = 1024 := by decide
  have held := run_put_commit valid fits (room ▸ by decide)
  have reached := reached_create valid [.put [0x61] [0x31] .upsert, .commit]
  obtain ⟨size, checkpoint⟩ := size_advanced_new valid [0x61] [0x31]
  rw [room, ← held] at size checkpoint
  have page : ((create { pageSize := 512 } {}).run [.put [0x61] [0x31] .upsert, .commit]).handle.pageSize = 512 := by
    rw [held]
    rfl
  obtain ⟨session, named⟩ :
      ∃ session, session = (create { pageSize := 512 } {}).run [.put [0x61] [0x31] .upsert, .commit] := ⟨_, rfl⟩
  rw [← named] at reached size checkpoint page ⊢
  have grounded := (reached.valid (by rw [size]; decide)).grounded
  have faultless : MemoryStore.Faultless { image := session.handle.image } := rfl
  obtain ⟨opened, -, -⟩ := load_of_grounded .readOnly grounded faultless rfl validate_default
  exact ⟨_, _, rfl, opened, grounded.of_same rfl rfl rfl rfl rfl, rfl, size, checkpoint, page⟩

/-- Five zeros reach no boundary, so the checkpoint is found again. -/
theorem tail_opens_after_five_zeros :
    ∃ image handle,
      (load device .readOnly {} { image }).1.result = .ok handle ∧ handle.checkpoint = 1024 ∧
      Opens (image ++ Image.ofBytes (Bytes.zeros 5)) fun fresh _ => 1024 ≤ fresh.checkpoint := by
  obtain ⟨image, handle, -, opened, -, -, size, checkpoint, page⟩ := one_document
  obtain ⟨exactly, -, -⟩ := tail_opens_iff opened (by omega) (Image.ofBytes (Bytes.zeros 5))
  rw [checkpoint] at exactly
  refine ⟨image, handle, opened, checkpoint, exactly.mpr (.inl fun stop trailer past valid => ?_)⟩
  obtain ⟨-, -, inside, aligned⟩ := stop_of_valid valid
  rw [Image.size_append, Image.size_ofBytes, Bytes.length_zeros] at inside
  rw [page] at aligned
  omega

/-- Two pages of zeros that end in a well-formed trailer: it closes an empty checkpoint of its own, and
what it calls the checkpoint before is the boundary between the two pages, where none ends. -/
theorem dangling_link_is_fatal :
    ∃ image handle,
      image = ((create { pageSize := 512 } {}).run [.put [0x61] [0x31] .upsert, .commit]).handle.image ∧
      (load device .readOnly {} { image }).1.result = .ok handle ∧ handle.checkpoint = 1024 ∧
      (load device .readOnly {}
        { image := image ++ .ofBytes (Bytes.zeros 984 ++ (⟨1496, 2048, 1536, 0⟩ : Trailer).encode) }).1.result
          = .error (.storage (.checkpoint 1496 .trailerMagic)) := by
  obtain ⟨image, handle, named, opened, grounded, same, size, checkpoint, page⟩ := one_document
  refine ⟨image, handle, named, opened, checkpoint, ?_⟩
  generalize put : image ++ Image.ofBytes (Bytes.zeros 984 ++ (⟨1496, 2048, 1536, 0⟩ : Trailer).encode) = longer
  have whole : longer.size = 2048 := by
    rw [← put, Image.size_append, Image.size_ofBytes, size, List.length_append, Trailer.length_encode, Bytes.length_zeros]
    rfl
  have read : Trailer.readEndingAt longer 2048 512 = .ok ⟨1496, 2048, 1536, 0⟩ := by
    rw [← put]
    exact readEndingAt_behind_zeros image 984 (by rw [size]; rfl) (by decide) (by decide)
      ⟨by decide, by decide, by decide, by decide⟩ ⟨rfl, by decide, by decide, rfl⟩
  -- the boundary that the trailer names lies in the zeros
  have broken : Trailer.readEndingAt longer 1536 512 = .error (.checkpoint 1496 .trailerMagic) := by
    refine readEndingAt_of_unmarked (by decide) (by omega) (by decide) ?_
    have zeros := slice_behind_of_zeros image (show 472 + 8 ≤ 984 by decide) (⟨1496, 2048, 1536, 0⟩ : Trailer).encode
    rw [put, size] at zeros
    rw [show 1536 - Trailer.size = 1024 + 472 from rfl, zeros]
    decide
  have newest : Newest longer 512 ⟨1496, 2048, 1536, 0⟩ :=
    newest_of_whole (validateCheckpoint_ok_iff.mpr ⟨by rw [whole]; exact read, [], rfl⟩)
  have unbuilt := build_of_broken_link read (by decide) broken
  subst same
  have decoded := (grounded.parts_behind (.ofBytes (Bytes.zeros 984 ++ (⟨1496, 2048, 1536, 0⟩ : Trailer).encode))).1
  have faultless : MemoryStore.Faultless { image := longer } := rfl
  unfold pageSize at page
  rw [put] at decoded
  rw [← page] at newest unbuilt
  rw [result_load .readOnly faultless (show 0 < longer.size by omega) validate_default,
    ofImage_of_unbuilt decoded newest unbuilt]
  rfl

end Session
end CheckpointStore
