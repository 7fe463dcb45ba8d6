import CheckpointStore.Format.Header
import CheckpointStore.Handle.Basic
import CheckpointStore.Proofs.Checkpoints

/-!
# The tail scan

Loading finds the newest valid checkpoint there is: the one at the greatest boundary that
validates. It finds none without complaint only where the bytes past the header reach no boundary,
and it reports damage exactly where bytes are left behind what it found.
-/

namespace CheckpointStore

theorem pageSize_pos {size : Nat} (h : isPageSize size = true) : 512 ≤ size ∧ size ≤ 65536 := by
  simp only [isPageSize, Bool.and_eq_true, decide_eq_true_eq] at h
  exact h.1

namespace Header

/-- A header is accepted where its twenty bytes stand at the start of a file of at least one page. -/
theorem decode_ok_iff {image : Image} {header : Header} :
    decode image = .ok header ↔
      header.version = currentVersion ∧ isPageSize header.pageSize = true ∧ header.pageSize ≤ image.size ∧
        image.slice 0 size = header.fields ++ LittleEndian.encode 4 (Crc32.checksum header.fields).toNat := by
  have full := image.length_slice 0 size
  have checks : decode image = .ok header ↔
      ¬ image.size < size ∧ ¬ (image.slice 0 size).take 8 ≠ magic ∧
        ¬ (Crc32.checksum ((image.slice 0 size).take 16)).toNat ≠ LittleEndian.read (image.slice 0 size) 16 4 ∧
        ¬ LittleEndian.read (image.slice 0 size) 8 4 ≠ currentVersion ∧
        ¬ isPageSize (LittleEndian.read (image.slice 0 size) 12 4) = false ∧
        ¬ image.size < LittleEndian.read (image.slice 0 size) 12 4 ∧
        Header.mk (LittleEndian.read (image.slice 0 size) 8 4) (LittleEndian.read (image.slice 0 size) 12 4) = header := by
    unfold decode
    simp only [check_ok_iff, Except.ok.injEq]
  rw [checks]
  generalize image.slice 0 size = raw at full
  constructor
  · rintro ⟨long, marked, sealed, version, sized, page, rfl⟩
    have whole : raw.length = 20 := by
      unfold size at *
      omega
    have first := LittleEndian.encode_read raw 8 4 (by omega)
    have second := LittleEndian.encode_read raw 12 4 (by omega)
    have check := LittleEndian.encode_read raw 16 4 (by omega)
    have under : (Header.mk (LittleEndian.read raw 8 4) (LittleEndian.read raw 12 4)).fields = raw.take 16 := by
      rw [fields, first, second, ← not_not.mp marked, Bytes.take_append_slice, Bytes.take_append_slice]
    refine ⟨not_not.mp version, by simpa using sized, by dsimp only; omega, ?_⟩
    rw [under, not_not.mp sealed, check, Bytes.take_append_slice, List.take_of_length_le (by omega)]
  · rintro ⟨version, sized, page, rfl⟩
    have bounds := pageSize_pos sized
    have length : header.fields.length = 16 := by simp [fields, magic]
    have first : LittleEndian.read
        (header.fields ++ LittleEndian.encode 4 (Crc32.checksum header.fields).toNat) 8 4 = header.version :=
      LittleEndian.read_middle magic
        (LittleEndian.encode 4 header.pageSize ++ LittleEndian.encode 4 (Crc32.checksum header.fields).toNat)
        (by simp [fields]) rfl (by rw [version]; decide)
    have second : LittleEndian.read
        (header.fields ++ LittleEndian.encode 4 (Crc32.checksum header.fields).toNat) 12 4 = header.pageSize :=
      LittleEndian.read_middle (magic ++ LittleEndian.encode 4 header.version)
        (LittleEndian.encode 4 (Crc32.checksum header.fields).toNat)
        (by simp [fields]) (by simp [magic]) (by omega)
    have sealed : LittleEndian.read
        (header.fields ++ LittleEndian.encode 4 (Crc32.checksum header.fields).toNat) 16 4
          = (Crc32.checksum header.fields).toNat :=
      LittleEndian.read_middle header.fields [] (by simp) length (UInt32.toNat_lt _)
    rw [first, second, sealed, List.take_left' length]
    refine ⟨by unfold size; omega, ?_, not_not.mpr rfl, not_not.mpr version, by simp [sized], by omega, rfl⟩
    exact not_not.mpr rfl

theorem decode_agree {a b : Image} {reach : Nat} {header : Header} (h : Image.Agree reach a b)
    (decoded : decode a = .ok header) (le : header.pageSize ≤ reach) : decode b = .ok header := by
  obtain ⟨version, sized, page, bytes⟩ := decode_ok_iff.mp decoded
  have bounds := pageSize_pos sized
  have right := h.right
  refine decode_ok_iff.mpr ⟨version, sized, by omega, ?_⟩
  rw [← h.slice (by unfold size; omega), bytes]

theorem decode_encode {pageSize : Nat} (sized : isPageSize pageSize = true) :
    decode (.ofBytes (ofPageSize pageSize).encode) = .ok (ofPageSize pageSize) := by
  have bounds := pageSize_pos sized
  have length : (ofPageSize pageSize).fields.length = 16 := by simp [fields, magic]
  refine decode_ok_iff.mpr ⟨rfl, sized, ?_, ?_⟩
  · rw [Image.size_ofBytes, length_encode]
  · rw [Image.slice_eq, Image.bytes_ofBytes, encode, Bytes.resize, Bytes.slice_from_zero]
    have short : ((ofPageSize pageSize).fields
        ++ LittleEndian.encode 4 (Crc32.checksum (ofPageSize pageSize).fields).toNat).length = 20 := by
      simp [length]
    have whole : ((ofPageSize pageSize).fields
        ++ LittleEndian.encode 4 (Crc32.checksum (ofPageSize pageSize).fields).toNat).take (ofPageSize pageSize).pageSize
          = (ofPageSize pageSize).fields
            ++ LittleEndian.encode 4 (Crc32.checksum (ofPageSize pageSize).fields).toNat := by
      refine List.take_of_length_le ?_
      rw [short]
      show 20 ≤ pageSize
      omega
    rw [whole]
    exact List.take_left' short

end Header

/-- The trailer closes the newest valid checkpoint of the image. -/
structure Newest (image : Image) (pageSize : Nat) (trailer : Trailer) : Prop where
  valid : validateCheckpoint image trailer.checkpointSize pageSize = .ok trailer
  newest : ∀ stop later, validateCheckpoint image stop pageSize = .ok later → stop ≤ trailer.checkpointSize

theorem Newest.unique {image : Image} {pageSize : Nat} {a b : Trailer} (first : Newest image pageSize a)
    (second : Newest image pageSize b) : a = b := by
  have same : a.checkpointSize = b.checkpointSize :=
    Nat.le_antisymm (second.newest _ _ first.valid) (first.newest _ _ second.valid)
  have valid := first.valid
  rw [same, second.valid] at valid
  exact (Except.ok.inj valid).symm

theorem page_of_read {image : Image} {stop pageSize : Nat} {trailer : Trailer}
    (read : Trailer.readEndingAt image stop pageSize = .ok trailer) : ∃ page, stop = page * pageSize ∧ 2 ≤ page := by
  obtain ⟨-, above, -, aligned⟩ := stop_of_read read
  obtain ⟨page, place⟩ := Nat.dvd_of_mod_eq_zero aligned
  rw [Nat.mul_comm] at place
  refine ⟨page, place, ?_⟩
  -- the first page is the header's, and the trailer lies past it
  by_contra less
  have small : page = 0 ∨ page = 1 := by omega
  rcases small with rfl | rfl <;> omega

theorem page_of_valid {image : Image} {stop pageSize : Nat} {trailer : Trailer} (positive : 0 < pageSize)
    (valid : validateCheckpoint image stop pageSize = .ok trailer) :
    ∃ page, stop = page * pageSize ∧ 2 ≤ page ∧ page ≤ image.size / pageSize := by
  obtain ⟨page, place, two⟩ := page_of_read (validateCheckpoint_ok_iff.mp valid).1
  have inside := (stop_of_valid valid).2.2.1
  exact ⟨page, place, two, (Nat.le_div_iff_mul_le positive).mpr (place ▸ inside)⟩

/-- What is reported of a file of `size` bytes of which those past `stop` are passed over. -/
def Recovery.past (size stop : Nat) : Recovery := if stop = size then .clean else .damaged (size - stop)

theorem Recovery.past_eq_clean_iff {size stop : Nat} : past size stop = .clean ↔ stop = size := by
  unfold past
  split
  · rename_i same
    simp [same]
  · rename_i different
    simp [different]

namespace Layout

/-- The scan stops at the greatest boundary that validates, and notes a failure for every page it
has passed. -/
theorem scan_eq_some {image : Image} {pageSize pages : Nat} {failure damage : Option DamageReason} {trailer : Trailer}
    (h : scan image pageSize pages failure = some (trailer, damage)) :
    ∃ page, 2 ≤ page ∧ page ≤ pages ∧ validateCheckpoint image (page * pageSize) pageSize = .ok trailer ∧
      (∀ later, page < later → later ≤ pages →
        ∀ other, validateCheckpoint image (later * pageSize) pageSize ≠ .ok other) ∧
      (damage.isSome = true ↔ failure.isSome = true ∨ page < pages) := by
  induction pages generalizing failure with
  | zero => simp [scan] at h
  | succ pages ih =>
    -- page one is the header's, so the last boundary that is tried is the second
    cases pages with
    | zero => simp [scan] at h
    | succ pages =>
      rw [scan] at h
      split at h
      · rename_i found valid
        simp only [Option.some.injEq, Prod.mk.injEq] at h
        obtain ⟨rfl, rfl⟩ := h
        refine ⟨pages + 2, by omega, by omega, valid, ?_, by simp⟩
        intro later above below
        omega
      · rename_i error refused
        obtain ⟨page, low, high, valid, later, noted⟩ := ih h
        refine ⟨page, low, by omega, valid, ?_, ?_⟩
        · intro other above below
          rcases Nat.lt_or_ge other (pages + 2) with inner | last
          · exact later other above (by omega)
          · obtain rfl : other = pages + 2 := by omega
            intro next
            rw [refused]
            exact nofun
        · rw [noted]
          simp
          omega

/-- The scan comes to nothing only when no boundary past the header validates. -/
theorem scan_eq_none {image : Image} {pageSize pages : Nat} {failure : Option DamageReason}
    (h : scan image pageSize pages failure = none) :
    ∀ page, 2 ≤ page → page ≤ pages →
      ∀ trailer, validateCheckpoint image (page * pageSize) pageSize ≠ .ok trailer := by
  induction pages generalizing failure with
  | zero =>
    intro page low high
    omega
  | succ pages ih =>
    cases pages with
    | zero =>
      intro page low high
      omega
    | succ pages =>
      rw [scan] at h
      split at h
      · contradiction
      · rename_i error refused
        intro page low high trailer
        rcases Nat.lt_or_ge page (pages + 2) with inner | last
        · exact ih h page low (by omega) trailer
        · obtain rfl : page = pages + 2 := by omega
          rw [refused]
          exact nofun

def validEnd (layout : Layout) : Nat := (layout.current.map Trailer.checkpointSize).getD layout.header.pageSize

/-- What loading finds: the header, and the newest valid checkpoint or a file without a boundary
past the header. -/
structure Found (image : Image) (layout : Layout) : Prop where
  header : Header.decode image = .ok layout.header
  current : ∀ trailer, layout.current = some trailer → Newest image layout.header.pageSize trailer
  fresh : layout.current = none → image.size / layout.header.pageSize = 1
  recovery : Recovery.ofLayout layout = Recovery.past image.size layout.validEnd

theorem recovery_past {image : Image} {layout : Layout} {reason : Option DamageReason}
    (damage : layout.damage = reason.map fun reason => ⟨layout.validEnd, image.size, reason⟩)
    (noted : reason.isSome = true ↔ layout.validEnd ≠ image.size) :
    Recovery.ofLayout layout = Recovery.past image.size layout.validEnd := by
  unfold Recovery.ofLayout Recovery.past
  rw [damage]
  cases reason with
  | none =>
    rw [if_pos (by simpa using noted)]
    rfl
  | some reason =>
    rw [if_neg (by simpa using noted)]
    rfl

theorem found_of_load {image : Image} {layout : Layout} (h : load image = .ok layout) : Found image layout := by
  unfold load at h
  split at h
  · contradiction
  rename_i header decoded
  have page := (Header.decode_ok_iff.mp decoded).2.1
  have bounds := pageSize_pos page
  have positive : 0 < header.pageSize := by omega
  have parts := Nat.div_add_mod image.size header.pageSize
  dsimp only at h
  split at h
  · rename_i one
    obtain rfl := Except.ok.inj h
    rw [one] at parts
    refine ⟨decoded, nofun, fun _ => one, recovery_past rfl ?_⟩
    show Option.isSome (ite _ _ _) = true ↔ header.pageSize ≠ image.size
    split <;> simp <;> omega
  · split at h
    · rename_i trailer damage scanned
      obtain rfl := Except.ok.inj h
      obtain ⟨page, low, high, valid, later, noted⟩ := scan_eq_some scanned
      have ends := (stop_of_valid valid).1
      refine ⟨decoded, ?_, nofun, recovery_past rfl ?_⟩
      · intro other same
        obtain rfl := Option.some.inj same
        refine ⟨by rw [ends]; exact valid, ?_⟩
        intro stop next validNext
        obtain ⟨index, rfl, -, inside⟩ := page_of_valid positive validNext
        rw [ends]
        apply Nat.le_of_not_lt
        intro greater
        exact later index (Nat.lt_of_mul_lt_mul_right greater) inside next validNext
      · rw [noted]
        show _ ↔ trailer.checkpointSize ≠ image.size
        have inside : page * header.pageSize ≤ image.size / header.pageSize * header.pageSize :=
          Nat.mul_le_mul_right _ high
        have behind : page < image.size / header.pageSize ↔
            page * header.pageSize < image.size / header.pageSize * header.pageSize :=
          (Nat.mul_lt_mul_right positive).symm
        rw [Nat.mul_comm header.pageSize] at parts
        rw [ends, behind]
        split
        · simp only [Option.isSome_none, Bool.false_eq_true, false_or]
          omega
        · simp only [Option.isSome_some, true_or, true_iff]
          omega
    · contradiction

theorem load_of_newest {image : Image} {header : Header} {trailer : Trailer} (decoded : Header.decode image = .ok header)
    (newest : Newest image header.pageSize trailer) :
    ∃ layout, load image = .ok layout ∧ layout.header = header ∧ layout.current = some trailer := by
  have bounds := pageSize_pos (Header.decode_ok_iff.mp decoded).2.1
  obtain ⟨page, place, two, high⟩ := page_of_valid (by omega) newest.valid
  have loaded : ∃ layout, load image = .ok layout ∧ layout.header = header ∧ layout.current.isSome = true := by
    unfold load
    simp only [decoded]
    rw [if_neg (by omega)]
    split
    · exact ⟨_, rfl, rfl, rfl⟩
    · rename_i nothing
      have valid := newest.valid
      rw [place] at valid
      exact absurd valid (scan_eq_none nothing page two high trailer)
  obtain ⟨layout, loaded, rfl, some⟩ := loaded
  obtain ⟨found, current⟩ := Option.isSome_iff_exists.mp some
  rw [((found_of_load loaded).current found current).unique newest] at current
  exact ⟨layout, loaded, rfl, current⟩

theorem load_of_fresh {image : Image} {header : Header} (decoded : Header.decode image = .ok header)
    (one : image.size / header.pageSize = 1) :
    ∃ layout, load image = .ok layout ∧ layout.header = header ∧ layout.current = none := by
  unfold load
  simp only [decoded]
  rw [if_pos one]
  exact ⟨_, rfl, rfl, rfl⟩

/-- A file with a boundary past the header of which none validates is refused. -/
theorem load_of_refused {image : Image} {header : Header} (decoded : Header.decode image = .ok header)
    (long : 2 * header.pageSize ≤ image.size)
    (refused : ∀ stop trailer, validateCheckpoint image stop header.pageSize ≠ .ok trailer) :
    load image = .error (.noValidCheckpoint image.size) := by
  have bounds := pageSize_pos (Header.decode_ok_iff.mp decoded).2.1
  have many : image.size / header.pageSize ≠ 1 := by
    intro one
    rw [Nat.div_eq_iff (by omega)] at one
    omega
  unfold load
  simp only [decoded]
  rw [if_neg many]
  split
  · rename_i trailer failure scanned
    obtain ⟨page, -, -, valid, -⟩ := scan_eq_some scanned
    exact absurd valid (refused _ trailer)
  · rfl

end Layout
end CheckpointStore
