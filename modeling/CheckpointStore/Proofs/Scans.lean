import Mathlib.Order.Bounds.Basic
import CheckpointStore.Proofs.Tails

/-!
# What the tail scan finds, and when it finds the same again

The scan goes down from the last page boundary and stops at the first that validates, which is the
greatest there is. Whether a boundary validates is decided by the bytes before it, so bytes put behind
a file add boundaries and take none away.
-/

namespace CheckpointStore

/-- The page boundaries past the header at which a checkpoint validates. -/
def closings (image : Image) (pageSize : Nat) : Set Nat :=
  {stop | pageSize ∣ stop ∧ 2 * pageSize ≤ stop ∧ stop ≤ image.size ∧
    ∃ trailer, validateCheckpoint image stop pageSize = .ok trailer}

/-- Why the boundary is refused. -/
def refusal? (image : Image) (pageSize stop : Nat) : Option DamageReason :=
  match validateCheckpoint image stop pageSize with
  | .error error => some (.refused error)
  | .ok _ => none

/-- The first thing that the scan of a file has to pass over: bytes past the last boundary, or else
that boundary where it is refused. -/
def firstFailure (image : Image) (pageSize : Nat) : Option DamageReason :=
  if image.size % pageSize = 0 then refusal? image pageSize image.size
  else some (.trailingBytes (image.size % pageSize))

section Closings

variable {image : Image} {pageSize stop : Nat} {trailer : Trailer}

/-- Nothing validates below the second boundary, nor past the end. -/
theorem mem_closings_iff (positive : 0 < pageSize) :
    stop ∈ closings image pageSize ↔ ∃ trailer, validateCheckpoint image stop pageSize = .ok trailer := by
  constructor
  · rintro ⟨-, -, -, valid⟩
    exact valid
  · rintro ⟨trailer, valid⟩
    obtain ⟨page, place, two, -⟩ := page_of_valid positive valid
    obtain ⟨-, -, inside, aligned⟩ := stop_of_valid valid
    refine ⟨Nat.dvd_of_mod_eq_zero aligned, ?_, inside, trailer, valid⟩
    rw [place]
    exact Nat.mul_le_mul_right pageSize two

theorem isGreatest_closings_iff (positive : 0 < pageSize)
    (valid : validateCheckpoint image stop pageSize = .ok trailer) :
    IsGreatest (closings image pageSize) stop ↔ Newest image pageSize trailer := by
  have ends := (stop_of_valid valid).1
  constructor
  · rintro ⟨-, greatest⟩
    refine ⟨by rw [ends]; exact valid, fun later other above => ?_⟩
    rw [ends]
    exact greatest ((mem_closings_iff positive).mpr ⟨other, above⟩)
  · intro newest
    refine ⟨(mem_closings_iff positive).mpr ⟨trailer, valid⟩, fun later closes => ?_⟩
    obtain ⟨other, above⟩ := (mem_closings_iff positive).mp closes
    rw [← ends]
    exact newest.newest later other above

theorem exists_greatest (positive : 0 < pageSize) (some : (closings image pageSize).Nonempty) :
    ∃ stop trailer, IsGreatest (closings image pageSize) stop ∧
      validateCheckpoint image stop pageSize = .ok trailer ∧ Newest image pageSize trailer := by
  obtain ⟨boundary, -, -, -, other, valid⟩ := some
  obtain ⟨trailer, newest, -⟩ := exists_newest valid
  exact ⟨_, trailer, (isGreatest_closings_iff positive newest.valid).mpr newest, newest.valid, newest⟩

/-- Nothing is passed over where the newest checkpoint ends with the file, and something elsewhere. -/
theorem firstFailure_eq_none_iff (newest : Newest image pageSize trailer) :
    firstFailure image pageSize = none ↔ trailer.checkpointSize = image.size := by
  unfold firstFailure refusal?
  split
  · split
    · rename_i error refused
      refine iff_of_false (Option.some_ne_none _) fun same => ?_
      have valid := newest.valid
      rw [same, refused] at valid
      contradiction
    · rename_i last valid
      refine iff_of_true rfl (Nat.le_antisymm ?_ (newest.newest _ _ valid))
      exact (stop_of_valid newest.valid).2.2.1
  · rename_i unaligned
    refine iff_of_false (Option.some_ne_none _) fun same => unaligned ?_
    rw [← same]
    exact (stop_of_valid newest.valid).2.2.2

end Closings

namespace Layout

section Load

variable {image : Image} {header : Header} {trailer : Trailer}

/-- Of all that the scan passes over, the first is kept. -/
theorem scan_noted {pageSize pages : Nat} {failure damage : Option DamageReason}
    (h : scan image pageSize pages failure = some (trailer, damage)) :
    damage = (failure <|> refusal? image pageSize (pages * pageSize)) := by
  induction pages generalizing failure with
  | zero => simp [scan] at h
  | succ pages ih =>
    cases pages with
    | zero => simp [scan] at h
    | succ pages =>
      rw [scan] at h
      unfold refusal?
      split at h
      · rename_i found valid
        obtain ⟨-, rfl⟩ := Prod.mk.inj (Option.some.inj h)
        simp [valid]
      · rename_i error refused
        -- what stands noted by now is kept over anything that is met further down
        rw [ih h, refused]
        cases failure <;> rfl

theorem load_of_one_page (decoded : Header.decode image = .ok header) (short : image.size < 2 * header.pageSize) :
    load image = .ok ⟨header, none, image.size,
      if image.size = header.pageSize then none
      else some ⟨header.pageSize, image.size, .trailingBytes (image.size - header.pageSize)⟩⟩ := by
  obtain ⟨-, sized, page, -⟩ := Header.decode_ok_iff.mp decoded
  have bounds := pageSize_pos sized
  have one : image.size / header.pageSize = 1 := by
    rw [Nat.div_eq_iff (by omega)]
    omega
  have trailing : image.size % header.pageSize = image.size - header.pageSize := by
    rw [Nat.mod_eq_sub_mod page, Nat.mod_eq_of_lt (by omega)]
  unfold load
  simp only [decoded]
  rw [if_pos one, trailing]
  by_cases whole : image.size = header.pageSize
  · rw [if_pos whole, if_pos (by omega)]
    rfl
  · rw [if_neg whole, if_neg (by omega)]
    rfl

/-- The newest checkpoint is found, and what was passed over first is the damage behind it. -/
theorem load_of_newest_exactly (decoded : Header.decode image = .ok header)
    (newest : Newest image header.pageSize trailer) :
    load image = .ok ⟨header, some trailer, image.size,
      (firstFailure image header.pageSize).map fun reason => ⟨trailer.checkpointSize, image.size, reason⟩⟩ := by
  obtain ⟨layout, loaded, -, current⟩ := load_of_newest decoded newest
  have unfolded := loaded
  unfold load at unfolded
  simp only [decoded] at unfolded
  split at unfolded
  · obtain rfl := Except.ok.inj unfolded
    exact absurd current nofun
  split at unfolded
  · rename_i found damage scanned
    obtain rfl := Except.ok.inj unfolded
    obtain rfl := Option.some.inj current
    have noted : damage = firstFailure image header.pageSize := by
      rw [scan_noted scanned]
      unfold firstFailure
      split
      · rename_i aligned
        rw [Nat.div_mul_cancel (Nat.dvd_of_mod_eq_zero aligned)]
        rfl
      · rfl
    rw [loaded, noted]
  · contradiction

theorem load_eq_refused_iff (decoded : Header.decode image = .ok header) (long : 2 * header.pageSize ≤ image.size) :
    load image = .error (.noValidCheckpoint image.size) ↔ closings image header.pageSize = ∅ := by
  have bounds := pageSize_pos (Header.decode_ok_iff.mp decoded).2.1
  constructor
  · intro refused
    by_contra closed
    obtain ⟨stop, trailer, -, -, newest⟩ := exists_greatest (by omega) (Set.nonempty_iff_ne_empty.mpr closed)
    rw [load_of_newest_exactly decoded newest] at refused
    contradiction
  · intro none
    refine load_of_refused decoded long fun stop trailer valid => ?_
    have closes := (mem_closings_iff (by omega)).mpr ⟨trailer, valid⟩
    rw [none] at closes
    exact closes

/-- Bytes put behind a file leave every boundary in it as it was. -/
theorem later_of_appended (decoded : Header.decode image = .ok header) (newest : Newest image header.pageSize trailer)
    (rest : Image) :
    ∃ found, Newest (image ++ rest) header.pageSize found ∧ trailer.checkpointSize ≤ found.checkpointSize ∧
      ((∀ stop, image.size < stop → stop ∉ closings (image ++ rest) header.pageSize) → found = trailer) := by
  have bounds := pageSize_pos (Header.decode_ok_iff.mp decoded).2.1
  have agree := Image.agree_append image rest
  have inside := (stop_of_valid newest.valid).2.2.1
  have kept := (validateCheckpoint_agree agree inside).symm.trans newest.valid
  obtain ⟨found, last, later⟩ := exists_newest kept
  refine ⟨found, last, later, fun refused => ?_⟩
  have old : found.checkpointSize ≤ image.size := by
    by_contra past
    exact refused _ (by omega) ((mem_closings_iff (by omega)).mpr ⟨found, last.valid⟩)
  have before := newest.newest _ _ ((validateCheckpoint_agree agree old).trans last.valid)
  have same : found.checkpointSize = trailer.checkpointSize := Nat.le_antisymm before later
  have valid := last.valid
  rw [same, kept] at valid
  exact (Except.ok.inj valid).symm

/-- What loading a file with a readable header finds, by its size and by the greatest boundary that
validates, and what of it is found again when bytes are put behind the file. -/
theorem load_exact_and_stable (decoded : Header.decode image = .ok header) :
    (image.size = header.pageSize → load image = .ok ⟨header, none, image.size, none⟩) ∧
    (header.pageSize < image.size → image.size < 2 * header.pageSize →
      load image = .ok ⟨header, none, image.size,
        some ⟨header.pageSize, image.size, .trailingBytes (image.size - header.pageSize)⟩⟩) ∧
    (2 * header.pageSize ≤ image.size →
      ((closings image header.pageSize).Nonempty →
        ∃ stop trailer damage, IsGreatest (closings image header.pageSize) stop ∧
          validateCheckpoint image stop header.pageSize = .ok trailer ∧
          load image = .ok ⟨header, some trailer, image.size, damage⟩ ∧
          damage = (firstFailure image header.pageSize).map (fun reason => ⟨stop, image.size, reason⟩) ∧
          (damage = none ↔ stop = image.size)) ∧
      (load image = .error (.noValidCheckpoint image.size) ↔ closings image header.pageSize = ∅)) ∧
    ∀ rest : Image,
      (∀ stop ≤ image.size,
        validateCheckpoint (image ++ rest) stop header.pageSize = validateCheckpoint image stop header.pageSize) ∧
      ∀ layout trailer, load image = .ok layout → layout.current = some trailer →
        ∃ later found, load (image ++ rest) = .ok later ∧ later.header = header ∧ later.current = some found ∧
          trailer.checkpointSize ≤ found.checkpointSize ∧
          ((∀ stop, image.size < stop → stop ∉ closings (image ++ rest) header.pageSize) → found = trailer) := by
  have sized := (Header.decode_ok_iff.mp decoded).2.1
  have page := (Header.decode_ok_iff.mp decoded).2.2.1
  have bounds := pageSize_pos sized
  refine ⟨fun one => ?_, fun past short => ?_, fun long => ⟨fun some => ?_, load_eq_refused_iff decoded long⟩,
    fun rest => ⟨fun stop inside => ?_, fun layout trailer loaded current => ?_⟩⟩
  · rw [load_of_one_page decoded (by omega), if_pos one]
  · rw [load_of_one_page decoded short, if_neg (by omega)]
  · obtain ⟨stop, trailer, greatest, valid, newest⟩ := exists_greatest (by omega) some
    obtain rfl := (stop_of_valid valid).1
    refine ⟨_, trailer, _, greatest, valid, load_of_newest_exactly decoded newest, rfl, ?_⟩
    rw [Option.map_eq_none_iff]
    exact firstFailure_eq_none_iff newest
  · exact (validateCheckpoint_agree (Image.agree_append image rest) inside).symm
  · have found := found_of_load loaded
    obtain rfl : layout.header = header := Except.ok.inj (found.header.symm.trans decoded)
    obtain ⟨later, newest, above, same⟩ := later_of_appended decoded (found.current trailer current) rest
    have again := Header.decode_agree (Image.agree_append image rest) decoded page
    exact ⟨_, later, load_of_newest_exactly again newest, rfl, rfl, above, same⟩

end Load

/-- The one checkpoint of a file is found to the end, and again with five bytes behind it. -/
theorem load_exact_with_five_zeros :
    ∃ image header trailer, Header.decode image = .ok header ∧ image.size = 1024 ∧
      load image = .ok ⟨header, some trailer, 1024, none⟩ ∧
      (load (image ++ .ofBytes (Bytes.zeros 5))).map (fun layout => layout.current.map Trailer.checkpointSize)
        = .ok (some 1024) := by
  obtain ⟨image, handle, -, -, grounded, rfl, size, checkpoint, page⟩ := Session.one_document
  have pageSize : handle.header.pageSize = 512 := page
  obtain ⟨current, here⟩ := grounded.current_of_committed (by omega)
  have ends : current.checkpointSize = 1024 := (Handle.checkpoint_of_current here).symm.trans checkpoint
  have newest := grounded.current current here
  obtain ⟨-, -, long, behind⟩ := load_exact_and_stable grounded.header
  obtain ⟨found, -⟩ := long (by omega)
  have closes : (closings handle.image handle.header.pageSize).Nonempty :=
    ⟨_, (mem_closings_iff (by omega)).mpr ⟨current, newest.valid⟩⟩
  obtain ⟨stop, trailer, damage, greatest, valid, loaded, -, clean⟩ := found closes
  have last := (isGreatest_closings_iff (by omega) valid).mp greatest
  obtain rfl := last.unique newest
  have whole : stop = handle.image.size := by
    rw [← (stop_of_valid valid).1, ends, size]
  rw [clean.mpr whole, size] at loaded
  refine ⟨_, _, trailer, grounded.header, size, loaded, ?_⟩
  obtain ⟨-, stable⟩ := behind (.ofBytes (Bytes.zeros 5))
  obtain ⟨later, again, reloaded, -, same, -, kept⟩ := stable _ trailer loaded rfl
  -- the next boundary is half a page away
  have unchanged : again = trailer := kept fun boundary past closes => by
    obtain ⟨⟨page, rfl⟩, -, inside, -⟩ := closes
    rw [Image.size_append, Image.size_ofBytes, Bytes.length_zeros] at inside
    rw [pageSize] at inside past
    omega
  rw [reloaded, Except.map, same, unchanged, Option.map_some, ends]

end Layout
end CheckpointStore
