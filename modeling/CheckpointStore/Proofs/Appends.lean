import CheckpointStore.Handle.Commit
import CheckpointStore.Proofs.Openings

/-!
# Appended checkpoints

A checkpoint that is laid out behind a grounded image validates there, holds the changes it was
made of, and follows the current checkpoint on the chain. So the handle that advances past it is
grounded again.
-/

namespace CheckpointStore

theorem le_roundUp (value : Nat) {multiple : Nat} (positive : 0 < multiple) : value ≤ roundUp value multiple := by
  have parts := Nat.div_add_mod (value + multiple - 1) multiple
  have less := Nat.mod_lt (value + multiple - 1) positive
  rw [Nat.mul_comm] at parts
  unfold roundUp
  omega

theorem roundUp_lt (value : Nat) {multiple : Nat} (positive : 0 < multiple) : roundUp value multiple < value + multiple := by
  have below := Nat.div_mul_le_self (value + multiple - 1) multiple
  unfold roundUp
  omega

theorem roundUp_mod (value multiple : Nat) : roundUp value multiple % multiple = 0 := Nat.mul_mod_left _ _

namespace PendingCheckpoint

/-- The checkpoint that changes make at the end of a file of `fileSize` bytes. -/
def laidOut (fileSize pageSize : Nat) (previous : Option Trailer) (changes : List Change) : PendingCheckpoint :=
  let blocks : Bytes := changes.flatMap Change.encode
  let trailer := trailerFor fileSize (fileSize + blocks.length) pageSize previous changes.length
  ⟨blocks, Bytes.zeros (trailer.offset - (fileSize + blocks.length)) ++ trailer.encode, trailer⟩

/-- A checkpoint is built exactly when its changes are not too many and none is too large. -/
theorem build_ok_iff {fileSize pageSize : Nat} {previous : Option Trailer} {changes : List Change}
    {pending : PendingCheckpoint} :
    build fileSize pageSize previous changes = .ok pending ↔
      changes.length < countLimit ∧ (∀ change ∈ changes, change.Fits) ∧
        pending = laidOut fileSize pageSize previous changes := by
  rw [build, check_ok_iff, Nat.not_le]
  refine and_congr_right fun _ => ?_
  cases encoded : Change.encodeAll? changes with
  | error error =>
    simp only [reduceCtorEq, false_iff]
    rintro ⟨fit, -⟩
    rw [Change.encodeAll?_ok_iff.mpr ⟨fit, rfl⟩] at encoded
    contradiction
  | ok blocks =>
    obtain ⟨fit, rfl⟩ := Change.encodeAll?_ok_iff.mp encoded
    simp only [Except.ok.injEq, eq_comm (b := pending)]
    exact (and_iff_right fit).symm

theorem build_error {fileSize pageSize : Nat} {previous : Option Trailer} {changes : List Change} {error : StorageError}
    (h : build fileSize pageSize previous changes = .error error) : ∃ fault, error = .tooLarge fault := by
  have large : ∀ changes failure, Change.encodeAll? changes = .error failure → ∃ fault, failure = .tooLarge fault := by
    intro changes
    induction changes with
    | nil => exact fun _ => nofun
    | cons change rest ih =>
      intro failure refused
      rw [Change.encodeAll?, Change.encode?] at refused
      split at refused
      · rename_i first
        obtain rfl := Except.error.inj refused
        split at first
        · exact ⟨_, (Except.error.inj first).symm⟩
        · contradiction
      · split at refused
        · rename_i later
          obtain rfl := Except.error.inj refused
          exact ih _ later
        · contradiction
  unfold build at h
  split at h
  · exact ⟨_, (Except.error.inj h).symm⟩
  · split at h
    · rename_i refused
      obtain rfl := Except.error.inj h
      exact large _ _ refused
    · contradiction

section LaidOut

variable {fileSize pageSize : Nat} {previous : Option Trailer} {changes : List Change}

theorem room_laidOut (positive : 0 < pageSize) :
    fileSize + (changes.flatMap Change.encode).length + 40
      ≤ (laidOut fileSize pageSize previous changes).trailer.checkpointSize := le_roundUp _ positive

theorem aligned_laidOut : (laidOut fileSize pageSize previous changes).trailer.checkpointSize % pageSize = 0 :=
  roundUp_mod _ _

theorem size_laidOut (positive : 0 < pageSize) :
    fileSize + (laidOut fileSize pageSize previous changes).bytes.length
      = (laidOut fileSize pageSize previous changes).trailer.checkpointSize := by
  have room : fileSize + (changes.flatMap Change.encode).length + 40
      ≤ (laidOut fileSize pageSize previous changes).trailer.checkpointSize := room_laidOut positive
  have tail : (laidOut fileSize pageSize previous changes).tail.length
      = (laidOut fileSize pageSize previous changes).trailer.offset
        - (fileSize + (changes.flatMap Change.encode).length) + 40 := by
    simp [laidOut, Trailer.size]
  rw [bytes, List.length_append, tail]
  show fileSize + ((changes.flatMap Change.encode).length + _) = _
  unfold Trailer.offset Trailer.size
  omega

/-- The trailer before, if there is one, ends on a page within the file, at a number of eight bytes. -/
def Links (fileSize pageSize : Nat) (previous : Option Trailer) : Prop :=
  ∀ trailer, previous = some trailer →
    pageSize + 40 ≤ trailer.checkpointSize ∧ trailer.checkpointSize ≤ fileSize ∧
      trailer.checkpointSize % pageSize = 0 ∧ trailer.checkpointSize < 256 ^ 8

theorem links_of_valid {image : Image}
    (valid : ∀ trailer, previous = some trailer → ∃ stop, validateCheckpoint image stop pageSize = .ok trailer) :
    Links image.size pageSize previous := by
  intro trailer last
  obtain ⟨stop, whole⟩ := valid trailer last
  obtain ⟨ends, above, inside, aligned⟩ := stop_of_valid whole
  obtain ⟨-, -, -, -, fits, -⟩ := Trailer.readEndingAt_ok_iff.mp (validateCheckpoint_ok_iff.mp whole).1
  exact ⟨ends ▸ above, ends ▸ inside, ends ▸ aligned, fits.checkpointSize⟩

/-- A link that is written never starts over at zero. -/
theorem link_laidOut_lt (links : Links fileSize pageSize previous) :
    (laidOut fileSize pageSize previous changes).trailer.previousTrailer + 40 < 256 ^ 8 := by
  cases previous with
  | none => exact (by decide : 0 + 40 < 256 ^ 8)
  | some trailer =>
    obtain ⟨above, -, -, small⟩ := links trailer rfl
    show trailer.checkpointSize - 40 + 40 < 256 ^ 8
    omega

theorem linked_laidOut (positive : 0 < pageSize) (links : Links fileSize pageSize previous) :
    (laidOut fileSize pageSize previous changes).trailer.previousCheckpoint
        = (previous.map Trailer.checkpointSize).getD 0 ∧
      (laidOut fileSize pageSize previous changes).trailer.linkInRange pageSize = true := by
  cases previous with
  | none => exact ⟨if_pos rfl, Trailer.linkInRange_iff.mpr (.inl rfl)⟩
  | some trailer =>
    obtain ⟨above, inside, aligned, -⟩ := links trailer rfl
    have link : (laidOut fileSize pageSize (some trailer) changes).trailer.previousTrailer
        = trailer.checkpointSize - 40 := rfl
    have start : (laidOut fileSize pageSize (some trailer) changes).trailer.blocksStart = fileSize := rfl
    have back : (laidOut fileSize pageSize (some trailer) changes).trailer.linkEnd = trailer.checkpointSize := by
      rw [Trailer.linkEnd_of_lt (link_laidOut_lt links), link]
      omega
    rw [Trailer.previousCheckpoint, Trailer.linkInRange_iff, back, link, start, if_neg (by omega)]
    exact ⟨rfl, .inr ⟨by omega, inside, Nat.dvd_of_mod_eq_zero aligned⟩⟩

/-- What is laid out behind an image is read back there: the trailer, and the changes as blocks. -/
theorem read_laidOut {image : Image} (positive : 0 < pageSize) (filled : pageSize ≤ image.size)
    (links : Links image.size pageSize previous) (count : changes.length < countLimit)
    (fit : ∀ change ∈ changes, change.Fits)
    (addressable : (laidOut image.size pageSize previous changes).trailer.checkpointSize < 256 ^ 8) :
    Trailer.readEndingAt (image ++ Image.ofBytes (laidOut image.size pageSize previous changes).bytes)
        (laidOut image.size pageSize previous changes).trailer.checkpointSize pageSize
        = .ok (laidOut image.size pageSize previous changes).trailer ∧
      (laidOut image.size pageSize previous changes).trailer.blocks
        (image ++ Image.ofBytes (laidOut image.size pageSize previous changes).bytes)
        = .ok (Block.place image.size changes) := by
  obtain ⟨-, linked⟩ := @linked_laidOut _ _ _ changes positive links
  have link := @link_laidOut_lt _ _ _ changes links
  have whole := @size_laidOut image.size pageSize previous changes positive
  have room := @room_laidOut image.size pageSize previous changes positive
  have aligned : (laidOut image.size pageSize previous changes).trailer.checkpointSize % pageSize = 0 := aligned_laidOut
  have start : (laidOut image.size pageSize previous changes).trailer.blocksStart = image.size := rfl
  have counted : (laidOut image.size pageSize previous changes).trailer.blockCount = changes.length := rfl
  have bytes : (laidOut image.size pageSize previous changes).bytes = changes.flatMap Change.encode
      ++ (Bytes.zeros ((laidOut image.size pageSize previous changes).trailer.offset
          - (image.size + (changes.flatMap Change.encode).length))
        ++ (laidOut image.size pageSize previous changes).trailer.encode) := rfl
  generalize laidOut image.size pageSize previous changes = pending at *
  have joined : (image ++ Image.ofBytes pending.bytes).bytes = image.bytes ++ (changes.flatMap Change.encode
      ++ (Bytes.zeros (pending.trailer.offset - (image.size + (changes.flatMap Change.encode).length))
        ++ pending.trailer.encode)) := by
    rw [Image.bytes_append, Image.bytes_ofBytes, bytes]
  have offset : pending.trailer.offset = pending.trailer.checkpointSize - 40 := rfl
  have first := image.length_bytes
  constructor
  · refine Trailer.readEndingAt_ok_iff.mpr ⟨?_, ?_, aligned, ?_, ?_, ?_⟩
    · unfold Trailer.size
      omega
    · rw [Image.size_append, Image.size_ofBytes, whole]
    · rw [Image.slice_eq]
      refine Bytes.slice_middle (image.bytes ++ changes.flatMap Change.encode
        ++ Bytes.zeros (pending.trailer.offset - (image.size + (changes.flatMap Change.encode).length))) [] ?_ ?_
        (Trailer.length_encode _)
      · rw [joined]
        simp only [List.append_assoc, List.append_nil]
      · simp only [List.length_append, Bytes.length_zeros, first, offset, Trailer.size]
        omega
    · exact ⟨by omega, by omega, by omega, counted ▸ count⟩
    · exact ⟨rfl, by omega, by omega, linked⟩
  · refine Trailer.blocks_ok_iff.mpr ⟨changes, Bytes.zeros (pending.trailer.offset
      - (image.size + (changes.flatMap Change.encode).length)), counted.symm, fit, ?_, by rw [start]⟩
    rw [Image.slice_eq, start]
    refine Bytes.slice_middle image.bytes pending.trailer.encode ?_ first ?_
    · rw [joined]
      simp only [List.append_assoc]
    · simp only [List.length_append, Bytes.length_zeros]
      omega

/-- Behind an image any changes within the limits can be laid out as a checkpoint after the one before. -/
theorem exists_longer {image : Image} {stop : Nat} (positive : 0 < pageSize) (filled : pageSize ≤ image.size)
    (links : Links image.size pageSize previous) (count : changes.length < countLimit)
    (fit : ∀ change ∈ changes, change.Fits)
    (ends : roundUp (image.size + (changes.flatMap Change.encode).length + Trailer.size) pageSize = stop)
    (addressable : stop < 256 ^ 8) :
    ∃ (longer : Image) (trailer : Trailer), longer.size = stop ∧ Image.Agree image.size image longer ∧
      Trailer.readEndingAt longer stop pageSize = .ok trailer ∧
      trailer.previousCheckpoint = (previous.map Trailer.checkpointSize).getD 0 ∧
      trailer.blocks longer = .ok (Block.place image.size changes) := by
  subst ends
  obtain ⟨read, parsed⟩ := read_laidOut positive filled links count fit addressable
  have whole := @size_laidOut image.size pageSize previous changes positive
  refine ⟨_, _, ?_, Image.agree_append image _, read, (linked_laidOut positive links).1, parsed⟩
  rw [Image.size_append, Image.size_ofBytes]
  exact whole

end LaidOut
end PendingCheckpoint

namespace Handle

open PendingCheckpoint

def laidOut (handle : Handle) (changes : List Change) : PendingCheckpoint :=
  PendingCheckpoint.laidOut handle.image.size handle.pageSize handle.current changes

/-- The handle past the checkpoint that changes make behind its image. -/
def advanced (handle : Handle) (changes : List Change) : Handle :=
  let trailer := (handle.laidOut changes).trailer
  { handle with
    image := handle.image ++ Image.ofBytes (handle.laidOut changes).bytes
    index := ⟨(Block.place handle.image.size changes).foldl (LiveIndex.applyBlock trailer.checkpointSize)
      handle.index.entries, trailer.checkpointSize⟩
    current := some trailer
    checkpoints := handle.checkpoints ++ [trailer.checkpointSize]
    staged := KeyMap.empty }

section Advanced

variable {handle : Handle} {changes : List Change}

theorem Grounded.length_laidOut (grounded : handle.Grounded) (changes : List Change) :
    handle.image.size + (handle.laidOut changes).bytes.length = (handle.laidOut changes).trailer.checkpointSize := by
  have positive := grounded.pageSize_bounds.2.1
  exact size_laidOut (show 0 < handle.pageSize by omega)

theorem Grounded.room_laidOut (grounded : handle.Grounded) (changes : List Change) :
    handle.image.size + (changes.flatMap Change.encode).length + 40 ≤ (handle.laidOut changes).trailer.checkpointSize := by
  have positive := grounded.pageSize_bounds.2.1
  exact PendingCheckpoint.room_laidOut (show 0 < handle.pageSize by omega)

theorem Grounded.size_advanced (grounded : handle.Grounded) (changes : List Change) :
    (handle.advanced changes).image.size = (handle.laidOut changes).trailer.checkpointSize := by
  show (handle.image ++ Image.ofBytes (handle.laidOut changes).bytes).size = _
  rw [Image.size_append, Image.size_ofBytes, grounded.length_laidOut]

theorem Grounded.links (grounded : handle.Grounded) : Links handle.image.size handle.pageSize handle.current :=
  links_of_valid fun trailer current => ⟨_, (grounded.current trailer current).valid⟩

theorem Grounded.linked (grounded : handle.Grounded) (changes : List Change) :
    (handle.laidOut changes).trailer.previousCheckpoint = handle.checkpoint ∧
      (handle.laidOut changes).trailer.linkInRange handle.pageSize = true := by
  have bounds := grounded.pageSize_bounds
  exact linked_laidOut (by omega) grounded.links

/-- The appended checkpoint is read back: its trailer, and its changes as blocks. -/
theorem Grounded.read_advanced (grounded : handle.Grounded) (count : changes.length < countLimit)
    (fit : ∀ change ∈ changes, change.Fits) (addressable : (handle.advanced changes).image.size < 256 ^ 8) :
    Trailer.readEndingAt (handle.advanced changes).image (handle.laidOut changes).trailer.checkpointSize handle.pageSize
        = .ok (handle.laidOut changes).trailer ∧
      (handle.laidOut changes).trailer.blocks (handle.advanced changes).image
        = .ok (Block.place handle.image.size changes) := by
  have bounds := grounded.pageSize_bounds
  rw [grounded.size_advanced] at addressable
  exact read_laidOut (by omega) bounds.2.2 grounded.links count fit addressable

theorem Grounded.apply_advanced (grounded : handle.Grounded) (count : changes.length < countLimit)
    (fit : ∀ change ∈ changes, change.Fits) (addressable : (handle.advanced changes).image.size < 256 ^ 8) :
    handle.index.apply (handle.advanced changes).image (handle.laidOut changes).trailer
      = .ok (handle.advanced changes).index := by
  unfold LiveIndex.apply
  rw [(grounded.read_advanced count fit addressable).2]
  rfl

theorem advance_laidOut (grounded : handle.Grounded) (count : changes.length < countLimit)
    (fit : ∀ change ∈ changes, change.Fits) (addressable : (handle.advanced changes).image.size < 256 ^ 8) :
    ∃ events, handle.advance (handle.laidOut changes)
      = ⟨handle.advanced changes, .ok (handle.laidOut changes).trailer.checkpointSize, events⟩ := by
  have applied := grounded.apply_advanced count fit addressable
  unfold advance
  simp only
  rw [show handle.image ++ Image.ofBytes (handle.laidOut changes).bytes = (handle.advanced changes).image from rfl,
    applied]
  exact ⟨_, rfl⟩

/-- The handle past an appended checkpoint is grounded. -/
theorem grounded_advanced (grounded : handle.Grounded) (count : changes.length < countLimit)
    (fit : ∀ change ∈ changes, change.Fits) (addressable : (handle.advanced changes).image.size < 256 ^ 8) :
    (handle.advanced changes).Grounded := by
  obtain ⟨read, parsed⟩ := grounded.read_advanced count fit addressable
  have whole := grounded.size_advanced changes
  obtain ⟨header, ⟨trailers, walk, history⟩, index⟩ :=
    grounded.parts_behind (Image.ofBytes (handle.laidOut changes).bytes)
  have back := (grounded.linked changes).1
  refine ⟨header, ?_, nofun, ⟨(handle.laidOut changes).trailer :: trailers, ?_, ?_⟩, ?_⟩
  · intro trailer current
    obtain rfl := Option.some.inj current
    refine ⟨validateCheckpoint_ok_iff.mpr ⟨read, _, parsed⟩, ?_⟩
    intro stop other valid
    rw [← whole]
    exact (stop_of_valid valid).2.2.1
  · refine Walk.step read ?_
    rw [back]
    exact walk
  · show (handle.checkpoints ++ [_]).reverse = _
    rw [List.reverse_append, List.map_cons, ← history]
    rfl
  · have before : LiveIndex.build (handle.advanced changes).image handle.pageSize
        (handle.laidOut changes).trailer.previousCheckpoint = .ok handle.index := by
      rw [back]
      exact index
    exact LiveIndex.build_of_read read before (grounded.apply_advanced count fit addressable)

end Advanced
end Handle
end CheckpointStore
