import CheckpointStore.Format.Trailer
import CheckpointStore.Proofs.Reading

/-!
# Trailers written and read

Reading accepts exactly the trailers that were written whole, end where they say, and point back
within the file. What is read depends on the bytes up to the end of the trailer alone.
-/

namespace CheckpointStore.Trailer

structure Fits (trailer : Trailer) : Prop where
  previousTrailer : trailer.previousTrailer < 256 ^ 8
  checkpointSize : trailer.checkpointSize < 256 ^ 8
  blocksStart : trailer.blocksStart < 256 ^ 8
  blockCount : trailer.blockCount < 256 ^ 4

/-- The places that a trailer names lie where a checkpoint that ends at `stop` has them. -/
structure Placed (trailer : Trailer) (stop pageSize : Nat) : Prop where
  ends : trailer.checkpointSize = stop
  afterHeader : pageSize ≤ trailer.blocksStart
  beforeTrailer : trailer.blocksStart ≤ trailer.offset
  linked : trailer.linkInRange pageSize = true

/-- The trailer that forty bytes spell, whether or not they are one. -/
def ofBytes (raw : Bytes) : Trailer :=
  ⟨LittleEndian.read raw 8 8, LittleEndian.read raw 16 8, LittleEndian.read raw 24 8, LittleEndian.read raw 32 4⟩

theorem length_fields (trailer : Trailer) : trailer.fields.length = 36 := by simp [fields, magic]

theorem fits_ofBytes (raw : Bytes) : (ofBytes raw).Fits :=
  ⟨LittleEndian.read_lt raw 8 8, LittleEndian.read_lt raw 16 8, LittleEndian.read_lt raw 24 8,
    LittleEndian.read_lt raw 32 4⟩

theorem ofBytes_encode {trailer : Trailer} (fits : trailer.Fits) : ofBytes trailer.encode = trailer := by
  have previous : LittleEndian.read trailer.encode 8 8 = trailer.previousTrailer :=
    LittleEndian.read_middle magic
      (LittleEndian.encode 8 trailer.checkpointSize ++ LittleEndian.encode 8 trailer.blocksStart
        ++ LittleEndian.encode 4 trailer.blockCount
        ++ LittleEndian.encode 4 (Crc32.checksum trailer.fields).toNat)
      (by simp [encode, fields]) rfl fits.previousTrailer
  have size : LittleEndian.read trailer.encode 16 8 = trailer.checkpointSize :=
    LittleEndian.read_middle (magic ++ LittleEndian.encode 8 trailer.previousTrailer)
      (LittleEndian.encode 8 trailer.blocksStart ++ LittleEndian.encode 4 trailer.blockCount
        ++ LittleEndian.encode 4 (Crc32.checksum trailer.fields).toNat)
      (by simp [encode, fields]) (by simp [magic]) fits.checkpointSize
  have start : LittleEndian.read trailer.encode 24 8 = trailer.blocksStart :=
    LittleEndian.read_middle
      (magic ++ LittleEndian.encode 8 trailer.previousTrailer ++ LittleEndian.encode 8 trailer.checkpointSize)
      (LittleEndian.encode 4 trailer.blockCount
        ++ LittleEndian.encode 4 (Crc32.checksum trailer.fields).toNat)
      (by simp [encode, fields]) (by simp [magic]) fits.blocksStart
  have count : LittleEndian.read trailer.encode 32 4 = trailer.blockCount :=
    LittleEndian.read_middle
      (magic ++ LittleEndian.encode 8 trailer.previousTrailer
        ++ LittleEndian.encode 8 trailer.checkpointSize ++ LittleEndian.encode 8 trailer.blocksStart)
      (LittleEndian.encode 4 (Crc32.checksum trailer.fields).toNat)
      (by simp [encode, fields]) (by simp [magic]) fits.blockCount
  unfold ofBytes
  rw [previous, size, start, count]

theorem encode_ofBytes {raw : Bytes} (full : raw.length = size) (marked : raw.take 8 = magic)
    (sealed : (Crc32.checksum (raw.take 36)).toNat = LittleEndian.read raw 36 4) :
    (ofBytes raw).encode = raw := by
  have long : raw.length = 40 := full
  have previous := LittleEndian.encode_read raw 8 8 (by omega)
  have stop := LittleEndian.encode_read raw 16 8 (by omega)
  have start := LittleEndian.encode_read raw 24 8 (by omega)
  have count := LittleEndian.encode_read raw 32 4 (by omega)
  have check := LittleEndian.encode_read raw 36 4 (by omega)
  have under : (ofBytes raw).fields = raw.take 36 := by
    unfold fields ofBytes
    rw [previous, stop, start, count, ← marked, Bytes.take_append_slice, Bytes.take_append_slice,
      Bytes.take_append_slice, Bytes.take_append_slice]
  rw [encode, under, sealed, check, Bytes.take_append_slice, List.take_of_length_le (by omega)]

theorem linkEnd_of_lt {trailer : Trailer} (small : trailer.previousTrailer + 40 < 256 ^ 8) :
    trailer.linkEnd = trailer.previousTrailer + 40 := Nat.mod_eq_of_lt small

/-- A sum that starts over at zero does so once. -/
theorem linkEnd_of_le {trailer : Trailer} (fits : trailer.Fits) (large : 256 ^ 8 ≤ trailer.previousTrailer + 40) :
    trailer.linkEnd = trailer.previousTrailer + 40 - 256 ^ 8 := by
  have bound := fits.previousTrailer
  show (trailer.previousTrailer + 40) % 256 ^ 8 = _
  rw [Nat.mod_eq_sub_mod large, Nat.mod_eq_of_lt (by omega)]

theorem linkInRange_iff {trailer : Trailer} {pageSize : Nat} :
    trailer.linkInRange pageSize = true ↔
      trailer.previousTrailer = 0 ∨ pageSize ≤ trailer.previousTrailer ∧
        trailer.linkEnd ≤ trailer.blocksStart ∧ pageSize ∣ trailer.linkEnd := by
  simp only [linkInRange, Bool.or_eq_true, beq_iff_eq, Bool.and_eq_true, decide_eq_true_eq, and_assoc,
    Nat.dvd_iff_mod_eq_zero]

/-- Everything that reading checks, in its order. -/
theorem readEndingAt_checks {image : Image} {stop pageSize : Nat} {raw : Bytes} {trailer : Trailer}
    (slice : image.slice (stop - size) size = raw) :
    readEndingAt image stop pageSize = .ok trailer ↔
      ¬ (stop < pageSize + size ∨ image.size < stop) ∧ ¬ stop % pageSize ≠ 0 ∧
        ¬ image.slice (stop - size) 8 ≠ magic ∧
        ¬ (Crc32.checksum (raw.take 36)).toNat ≠ LittleEndian.read raw 36 4 ∧
        ¬ (ofBytes raw).checkpointSize ≠ stop ∧
        ¬ ((ofBytes raw).blocksStart < pageSize ∨ (ofBytes raw).offset < (ofBytes raw).blocksStart) ∧
        ¬ (ofBytes raw).linkInRange pageSize = false ∧ Except.ok (ofBytes raw) = (.ok trailer : Except StorageError _) := by
  unfold readEndingAt
  simp only [slice, check_ok_iff]
  rfl

theorem placed_iff {trailer : Trailer} {stop pageSize : Nat} :
    trailer.Placed stop pageSize ↔
      ¬ trailer.checkpointSize ≠ stop ∧
        ¬ (trailer.blocksStart < pageSize ∨ trailer.offset < trailer.blocksStart) ∧
        ¬ trailer.linkInRange pageSize = false := by
  constructor
  · rintro ⟨ends, after, before, linked⟩
    exact ⟨not_not.mpr ends, by omega, by simp [linked]⟩
  · rintro ⟨ends, between, linked⟩
    exact ⟨not_not.mp ends, by omega, by omega, by simpa using linked⟩

/-- What reading checks, as one condition on the bytes and one on the places. -/
theorem readEndingAt_ok_iff {image : Image} {stop pageSize : Nat} {trailer : Trailer} :
    readEndingAt image stop pageSize = .ok trailer ↔
      pageSize + size ≤ stop ∧ stop ≤ image.size ∧ stop % pageSize = 0 ∧
        image.slice (stop - size) size = trailer.encode ∧ trailer.Fits ∧ trailer.Placed stop pageSize := by
  have front : image.slice (stop - size) 8 = (image.slice (stop - size) size).take 8 := by
    rw [← Bytes.slice_from_zero, Image.slice_slice _ (by decide), Nat.add_zero]
  have full := image.length_slice (stop - size) size
  generalize slice : image.slice (stop - size) size = raw at front full
  rw [readEndingAt_checks slice, front, Except.ok.injEq]
  constructor
  · rintro ⟨inside, aligned, marked, sealed, ends, between, linked, rfl⟩
    have whole := encode_ofBytes (by omega) (not_not.mp marked) (not_not.mp sealed)
    exact ⟨by omega, by omega, not_not.mp aligned, whole.symm, fits_ofBytes raw, placed_iff.mpr ⟨ends, between, linked⟩⟩
  · rintro ⟨above, inside, aligned, rfl, fits, placed⟩
    have under : trailer.encode.take 36 = trailer.fields := by
      rw [encode, List.take_left' (length_fields trailer)]
    have sealed : LittleEndian.read trailer.encode 36 4 = (Crc32.checksum trailer.fields).toNat :=
      LittleEndian.read_middle trailer.fields [] (by simp [encode]) (length_fields trailer) (UInt32.toNat_lt _)
    obtain ⟨ends, between, linked⟩ := placed_iff.mp placed
    rw [ofBytes_encode fits, under, sealed]
    exact ⟨by omega, not_not.mpr aligned, not_not.mpr rfl, not_not.mpr rfl, ends, between, linked, rfl⟩

theorem readEndingAt_agree {a b : Image} {stop pageSize reach : Nat} (h : Image.Agree reach a b) (le : stop ≤ reach) :
    readEndingAt a stop pageSize = readEndingAt b stop pageSize := by
  by_cases room : size ≤ stop
  · have raw : a.slice (stop - size) size = b.slice (stop - size) size := h.slice (by omega)
    have mark : a.slice (stop - size) 8 = b.slice (stop - size) 8 := h.slice (by unfold size at *; omega)
    have outside : (stop < pageSize + size ∨ a.size < stop) ↔ (stop < pageSize + size ∨ b.size < stop) := by
      have := h.left
      have := h.right
      omega
    unfold readEndingAt
    simp only [raw, mark, outside]
  · unfold readEndingAt
    simp only
    rw [if_pos (by omega), if_pos (by omega)]

theorem previousCheckpoint_le {trailer : Trailer} {stop pageSize : Nat} (placed : trailer.Placed stop pageSize) :
    trailer.previousCheckpoint ≤ trailer.blocksStart := by
  unfold previousCheckpoint
  split
  · exact Nat.zero_le _
  · rename_i linked
    obtain none | ⟨-, below, -⟩ := linkInRange_iff.mp placed.linked
    · exact absurd none linked
    · exact below

theorem previousCheckpoint_lt {image : Image} {trailer : Trailer} {stop pageSize : Nat}
    (read : readEndingAt image stop pageSize = .ok trailer) : trailer.previousCheckpoint < stop := by
  obtain ⟨above, _, _, _, _, placed⟩ := readEndingAt_ok_iff.mp read
  have back := previousCheckpoint_le placed
  have before := placed.beforeTrailer
  have ends := placed.ends
  unfold offset size at *
  omega

/-- There is no checkpoint before where there is no link, or where what it comes to starts over at zero. -/
theorem previousCheckpoint_eq_zero_iff {trailer : Trailer} (fits : trailer.Fits) :
    trailer.previousCheckpoint = 0 ↔ trailer.previousTrailer = 0 ∨ trailer.previousTrailer = 256 ^ 8 - 40 := by
  unfold previousCheckpoint
  by_cases large : 256 ^ 8 ≤ trailer.previousTrailer + 40
  · have bound := fits.previousTrailer
    rw [linkEnd_of_le fits large]
    split <;> omega
  · rw [linkEnd_of_lt (by omega)]
    split <;> omega

example : (⟨256 ^ 8 - 40, 1536, 512, 0⟩ : Trailer).linkInRange 512 = true := by decide

/-- A link leads to the end of a page, or nowhere. -/
theorem dvd_previousCheckpoint {trailer : Trailer} {stop pageSize : Nat} (placed : trailer.Placed stop pageSize) :
    pageSize ∣ trailer.previousCheckpoint := by
  unfold previousCheckpoint
  split
  · exact Nat.dvd_zero _
  · rename_i linked
    obtain none | ⟨-, -, aligned⟩ := linkInRange_iff.mp placed.linked
    · exact absurd none linked
    · exact aligned

theorem previousCheckpoint_add_le {image : Image} {trailer : Trailer} {stop pageSize : Nat}
    (read : readEndingAt image stop pageSize = .ok trailer) :
    trailer.previousCheckpoint + pageSize ≤ stop := by
  obtain ⟨-, -, aligned, -, -, placed⟩ := readEndingAt_ok_iff.mp read
  have back := previousCheckpoint_lt read
  -- both ends of the link are ends of pages
  exact Nat.le_of_lt_add_of_dvd (by omega) ((dvd_previousCheckpoint placed).add (Nat.dvd_refl pageSize))
    (Nat.dvd_of_mod_eq_zero aligned)

end CheckpointStore.Trailer
