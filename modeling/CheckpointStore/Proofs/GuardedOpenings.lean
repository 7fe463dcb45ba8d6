import CheckpointStore.Proofs.Guards

/-!
# Opening whatever is stored

An opening with every access watched reaches nowhere that it should not, whatever bytes are stored. It asks
for room as a trailer counts it. Where all is granted it comes to what opening gives, and where some is
refused it halts there.
-/

namespace CheckpointStore
namespace Guarded

variable {ε α β : Type}

/-- A trailer that can be read from the image counts so many blocks. -/
def Counts (image : Image) (count : Nat) : Prop :=
  ∃ (header : Header) (stop : Nat) (trailer : Trailer), Header.decode image = .ok header ∧
    Trailer.readEndingAt image stop header.pageSize = .ok trailer ∧ trailer.blockCount = count

/-- A count is a number of four bytes, so the room for it is one that can be named. -/
theorem Counts.lt {image : Image} {count : Nat} (counted : Counts image count) : count < 256 ^ 4 := by
  obtain ⟨header, stop, trailer, -, read, rfl⟩ := counted
  obtain ⟨-, -, -, -, fits, -⟩ := Trailer.readEndingAt_ok_iff.mp read
  exact fits.blockCount

/-- What a computation comes to that asks for room for these counts: its result, or a halt at the first
that is refused. -/
def Gives (grants : Nat → Bool) (asked : Nat → Prop) (guarded : Guarded ε α) (result : Except ε α) : Prop :=
  guarded = settled result ∨ ∃ count, asked count ∧ grants count = false ∧ guarded = halted (.noRoom count)

section Gives

variable {grants : Nat → Bool} {asked : Nat → Prop} {guarded : Guarded ε α} {next : α → Guarded ε β}

theorem Gives.bind_ok {value : α} {result : Except ε β} (first : Gives grants asked guarded (.ok value))
    (rest : Gives grants asked (next value) result) : Gives grants asked (guarded >>= next) result := by
  rcases first with rfl | ⟨count, needed, kept, rfl⟩
  · exact rest
  · exact .inr ⟨count, needed, kept, rfl⟩

theorem Gives.bind_error {error : ε} (first : Gives grants asked guarded (.error error)) :
    Gives grants asked (guarded >>= next) (.error error) := by
  rcases first with rfl | ⟨count, needed, kept, rfl⟩
  · exact .inl rfl
  · exact .inr ⟨count, needed, kept, rfl⟩

theorem reserve_of_refused {count : Nat} (kept : grants count = false) :
    (reserve grants count : Guarded ε Unit) = halted (.noRoom count) := if_neg (by simp [kept])

theorem gives_reserve {count : Nat} (needed : asked count) :
    Gives grants asked (reserve grants count : Guarded ε Unit) (.ok ()) := by
  cases kept : grants count with
  | true => exact .inl (if_pos kept)
  | false => exact .inr ⟨count, needed, kept, reserve_of_refused kept⟩

end Gives

section Open

variable {grants : Nat → Bool} {image : Image} {header : Header} {pageSize stop : Nat} {trailer : Trailer}

theorem blocks_eq (read : Trailer.readEndingAt image stop pageSize = .ok trailer) :
    blocks grants image.bytes trailer
      = reserve grants trailer.blockCount >>= fun _ =>
          blockRun image.bytes trailer.offset trailer.blockCount trailer.blocksStart := by
  obtain ⟨above, -, -, -, -, placed⟩ := Trailer.readEndingAt_ok_iff.mp read
  have ends := placed.ends
  unfold blocks
  rw [minus_eq (by omega), pure_bind]
  rfl

theorem blocks_gives (memory : image.size < 2 ^ 63) (decoded : Header.decode image = .ok header)
    (read : Trailer.readEndingAt image stop header.pageSize = .ok trailer) :
    Gives grants (Counts image) (blocks grants image.bytes trailer) (trailer.blocks image) := by
  obtain ⟨-, inside, -, -, -, placed⟩ := Trailer.readEndingAt_ok_iff.mp read
  have ends := placed.ends
  have offset : trailer.offset = trailer.checkpointSize - Trailer.size := rfl
  rw [blocks_eq read]
  refine (gives_reserve ⟨header, stop, trailer, decoded, read, rfl⟩).bind_ok (.inl ?_)
  exact blockRun_eq placed.beforeTrailer (by omega) memory _

theorem applyAll_gives {trailers : List Trailer} (index : LiveIndex) (memory : image.size < 2 ^ 63)
    (decoded : Header.decode image = .ok header)
    (read : ∀ trailer ∈ trailers, ∃ stop, Trailer.readEndingAt image stop header.pageSize = .ok trailer) :
    Gives grants (Counts image) (applyAll grants image.bytes trailers index) (LiveIndex.applyAll image trailers index) := by
  induction trailers generalizing index with
  | nil => exact .inl rfl
  | cons trailer rest ih =>
    obtain ⟨stop, here⟩ := read trailer List.mem_cons_self
    have parsed : Gives grants _ _ (trailer.blocks image) := blocks_gives memory decoded here
    rw [applyAll, LiveIndex.applyAll, LiveIndex.apply]
    cases found : trailer.blocks image with
    | error error => exact (found ▸ parsed).bind_error
    | ok blocks => exact (found ▸ parsed).bind_ok (ih _ fun other mem => read other (List.mem_cons_of_mem _ mem))

section Walked

variable (tame : Tame image) (memory : image.size < 2 ^ 63) (decoded : Header.decode image = .ok header)

include tame memory decoded

theorem validate_eq (read : Trailer.readEndingAt image stop header.pageSize = .ok trailer) :
    validate grants image.bytes stop header.pageSize
      = blocks grants image.bytes trailer >>= fun _ => pure trailer := by
  unfold validate
  rw [readEndingAt_eq tame memory decoded, read, settled_ok, pure_bind]

theorem validate_gives (stop : Nat) :
    Gives grants (Counts image) (validate grants image.bytes stop header.pageSize)
      (validateCheckpoint image stop header.pageSize) := by
  unfold validateCheckpoint
  cases read : Trailer.readEndingAt image stop header.pageSize with
  | error error =>
    unfold validate
    rw [readEndingAt_eq tame memory decoded, read]
    exact .inl rfl
  | ok trailer =>
    rw [validate_eq tame memory decoded read]
    have parsed : Gives grants _ _ (trailer.blocks image) := blocks_gives memory decoded read
    dsimp only
    cases found : trailer.blocks image with
    | error error => exact (found ▸ parsed).bind_error
    | ok blocks => exact (found ▸ parsed).bind_ok (.inl rfl)

theorem chain_eq (stop : Nat) :
    chain image.bytes header.pageSize stop = settled (CheckpointStore.chain image header.pageSize stop) := by
  induction stop using Nat.strongRecOn with
  | ind stop ih =>
    rw [chain, CheckpointStore.chain]
    split
    · rfl
    · rw [readEndingAt_eq tame memory decoded]
      cases read : Trailer.readEndingAt image stop header.pageSize with
      | error error => rfl
      | ok trailer =>
        have back := Trailer.previousCheckpoint_lt read
        rw [settled_ok, pure_bind, previousCheckpoint_eq (tame.link_lt decoded read), pure_bind]
        dsimp only
        rw [dif_pos back, dif_pos back, ih _ back]
        cases CheckpointStore.chain image header.pageSize trailer.previousCheckpoint with
        | error error => rfl
        | ok older => rfl

theorem scan_gives (pages : Nat) (failure : Option DamageReason) :
    Gives grants (Counts image) (scan grants image.bytes header.pageSize (pages * header.pageSize) failure)
      (.ok (Layout.scan image header.pageSize pages failure)) := by
  have bounds := pageSize_bounds decoded
  have size : Trailer.size = 40 := rfl
  induction pages generalizing failure with
  | zero =>
    rw [scan, plus_eq (by omega), pure_bind, if_pos (by omega)]
    exact .inl rfl
  | succ pages ih =>
    cases pages with
    | zero =>
      rw [scan, plus_eq (by omega), pure_bind, if_pos (by omega)]
      exact .inl rfl
    | succ pages =>
      change Gives _ _ (scan grants image.bytes header.pageSize ((pages + 2) * header.pageSize) failure)
        (.ok (Layout.scan image header.pageSize (pages + 2) failure))
      have room : 2 * header.pageSize ≤ (pages + 2) * header.pageSize := Nat.mul_le_mul_right header.pageSize (by omega)
      have next : (pages + 2) * header.pageSize - header.pageSize = (pages + 1) * header.pageSize := by
        rw [show pages + 2 = pages + 1 + 1 from rfl, Nat.succ_mul, Nat.add_sub_cancel]
      rw [scan, plus_eq (by omega), pure_bind, if_neg (by omega), Layout.scan]
      rcases validate_gives tame memory decoded ((pages + 2) * header.pageSize) with came | ⟨count, needed, kept, came⟩
      · rw [came]
        cases validateCheckpoint image ((pages + 2) * header.pageSize) header.pageSize with
        | ok trailer => exact .inl rfl
        | error error =>
          show Gives _ _ (minus _ _ >>= _) _
          rw [minus_eq (by omega), pure_bind, dif_pos (by omega), next]
          exact ih _
      · rw [came]
        exact .inr ⟨count, needed, kept, rfl⟩

theorem build_gives (stop : Nat) :
    Gives grants (Counts image) (build grants image.bytes header.pageSize stop)
      (LiveIndex.build image header.pageSize stop) := by
  unfold build LiveIndex.build
  rw [chain_eq tame memory decoded]
  cases walked : CheckpointStore.chain image header.pageSize stop with
  | error error => exact .inl rfl
  | ok trailers =>
    have walk := chain_ok_iff.mp walked
    rw [settled_ok, pure_bind]
    exact applyAll_gives _ memory decoded fun trailer mem => ⟨_, walk.read trailer (List.mem_reverse.mp mem)⟩

end Walked

/-- A file of one page or a part of a second is loaded without a look at it. -/
theorem load_eq_of_one_page (memory : image.size < 2 ^ 63) (decoded : Header.decode image = .ok header)
    (short : image.size < 2 * header.pageSize) : load grants image.bytes = settled (Layout.load image) := by
  have whole := image.length_bytes
  have bounds := pageSize_bounds decoded
  obtain ⟨-, -, page, -⟩ := Header.decode_ok_iff.mp decoded
  have one : image.size / header.pageSize = 1 := Nat.div_eq_of_lt_le (by omega) (by omega)
  have parts := Nat.div_add_mod image.size header.pageSize
  rw [one, Nat.mul_one] at parts
  rw [Layout.load_of_one_page decoded short]
  unfold load
  rw [decodeHeader_eq image memory, decoded, settled_ok, pure_bind, whole]
  split
  · rfl
  · rw [remainder_eq (by omega), pure_bind, minus_eq (by omega), pure_bind, minus_eq (by omega), pure_bind,
      Nat.sub_sub_self (by omega), show image.size - image.size % header.pageSize = header.pageSize by omega]
    dsimp only
    rw [if_pos rfl, if_neg (by omega), show image.size % header.pageSize = image.size - header.pageSize by omega]
    rfl

/-- Any other file is scanned from its last page boundary down. -/
theorem load_eq_scan (memory : image.size < 2 ^ 63) (decoded : Header.decode image = .ok header)
    (long : 2 * header.pageSize ≤ image.size) :
    load grants image.bytes = scan grants image.bytes header.pageSize (image.size / header.pageSize * header.pageSize)
        (if image.size % header.pageSize = 0 then none else some (.trailingBytes (image.size % header.pageSize)))
      >>= fun
        | some (trailer, failure) =>
          return ⟨header, some trailer, image.size, failure.map fun reason => ⟨trailer.checkpointSize, image.size, reason⟩⟩
        | none => throw (.noValidCheckpoint image.size) := by
  have whole := image.length_bytes
  have bounds := pageSize_bounds decoded
  have parts := Nat.div_add_mod image.size header.pageSize
  have less := Nat.mod_lt image.size (show 0 < header.pageSize by omega)
  rw [Nat.mul_comm] at parts
  have failure : (if image.size / header.pageSize * header.pageSize = image.size then none
        else some (DamageReason.trailingBytes (image.size % header.pageSize)))
      = if image.size % header.pageSize = 0 then none
        else some (DamageReason.trailingBytes (image.size % header.pageSize)) := if_congr (by omega) rfl rfl
  unfold load
  rw [decodeHeader_eq image memory, decoded, settled_ok, pure_bind, whole, if_neg (by omega), remainder_eq (by omega),
    pure_bind, minus_eq (by omega), pure_bind, minus_eq (by omega), pure_bind, Nat.sub_sub_self (by omega),
    show image.size - image.size % header.pageSize = image.size / header.pageSize * header.pageSize by omega]
  dsimp only
  rw [failure]
  exact if_neg (by omega)

theorem load_gives (tame : Tame image) (memory : image.size < 2 ^ 63) :
    Gives grants (Counts image) (load grants image.bytes) (Layout.load image) := by
  cases decoded : Header.decode image with
  | error error =>
    unfold load Layout.load
    rw [decodeHeader_eq image memory, decoded]
    exact .inl rfl
  | ok header =>
    have bounds := pageSize_bounds decoded
    by_cases short : image.size < 2 * header.pageSize
    · exact .inl (load_eq_of_one_page memory decoded short)
    · have pages : 2 ≤ image.size / header.pageSize := (Nat.le_div_iff_mul_le (by omega)).mpr (by omega)
      rw [load_eq_scan memory decoded (Nat.le_of_not_lt short)]
      unfold Layout.load
      simp only [decoded]
      rw [if_neg (show image.size / header.pageSize ≠ 1 by omega)]
      refine (scan_gives tame memory decoded _ _).bind_ok ?_
      cases Layout.scan image header.pageSize (image.size / header.pageSize) _ <;> exact .inl rfl

/-- What is left behind the newest checkpoint is no more than the whole file. -/
theorem discardedBytes_eq {layout : Layout} (loaded : Layout.load image = .ok layout) {damage : TailDamage}
    (noted : layout.damage = some damage) : discardedBytes damage = pure damage.discardedBytes := by
  have found := Layout.found_of_load loaded
  have page := (Header.decode_ok_iff.mp found.header).2.2.1
  have enough : damage.validEnd ≤ damage.fileSize := by
    cases current : layout.current with
    | none =>
      have bounds := pageSize_bounds found.header
      have one := found.fresh current
      rw [Nat.div_eq_iff (by omega)] at one
      have same := (Layout.load_of_one_page found.header (by omega)).symm.trans loaded
      rw [← Except.ok.inj same] at noted
      dsimp only at noted
      split at noted
      · contradiction
      · obtain rfl := Option.some.inj noted
        exact page
    | some trailer =>
      have newest := found.current trailer current
      have same := (Layout.load_of_newest_exactly found.header newest).symm.trans loaded
      rw [← Except.ok.inj same] at noted
      obtain ⟨reason, -, rfl⟩ := Option.map_eq_some_iff.mp noted
      exact (stop_of_valid newest.valid).2.2.1
  exact minus_eq enough

/-- Opening an image reaches nowhere that it should not, and gives what it gives. -/
theorem ofImage_gives (tame : Tame image) (memory : image.size < 2 ^ 63) (mode : OpenMode) (settings : Settings)
    (location : String) :
    Gives grants (Counts image) (ofImage grants image mode settings location)
      (Handle.ofImage image mode settings location) := by
  have loads : Gives grants _ _ (Layout.load image) := load_gives tame memory
  unfold ofImage Handle.ofImage
  cases loaded : Layout.load image with
  | error error => exact (loaded ▸ loads).bind_error
  | ok layout =>
    have decoded := (Layout.found_of_load loaded).header
    refine (loaded ▸ loads).bind_ok ?_
    dsimp only
    rw [chain_eq tame memory decoded]
    cases CheckpointStore.chain image layout.header.pageSize _ with
    | error error => exact .inl rfl
    | ok trailers =>
      have builds : Gives grants _ _ (LiveIndex.build image layout.header.pageSize
          ((layout.current.map Trailer.checkpointSize).getD 0)) := build_gives tame memory decoded _
      rw [settled_ok, pure_bind]
      dsimp only
      cases built : LiveIndex.build image layout.header.pageSize _ with
      | error error => exact (built ▸ builds).bind_error
      | ok index =>
        have discarded : layout.damage.mapM discardedBytes = pure (layout.damage.map TailDamage.discardedBytes) := by
          cases noted : layout.damage with
          | none => rfl
          | some damage =>
            show discardedBytes damage >>= _ = _
            rw [discardedBytes_eq loaded noted]
            rfl
        have recovery : ((layout.damage.map TailDamage.discardedBytes).map Recovery.damaged).getD .clean
            = Recovery.ofLayout layout := by
          unfold Recovery.ofLayout
          cases layout.damage <;> rfl
        refine (built ▸ builds).bind_ok (.inl ?_)
        rw [discarded, pure_bind, recovery]
        rfl

end Open

/-! ### Images of few trailers -/

theorem head?_trailer (trailer : Trailer) : trailer.encode.head? = some 0x4B := by
  simp [Trailer.encode, Trailer.fields, Trailer.magic]

theorem slice_zeros_ne_encode (front : Image) (count : Nat) {start : Nat} (behind : front.size ≤ start)
    (trailer : Trailer) : (front ++ .ofBytes (Bytes.zeros count)).slice start Trailer.size ≠ trailer.encode := by
  intro spelled
  obtain ⟨gap, rfl⟩ := Nat.exists_eq_add_of_le behind
  have first := head?_trailer trailer
  rw [← spelled, Image.slice_append_right, Image.slice_eq, Image.bytes_ofBytes, Bytes.slice, Bytes.zeros,
    List.drop_replicate, List.take_replicate, List.head?_replicate] at first
  split at first <;> contradiction

/-- Past the header the first page boundary is the end of the second page. -/
theorem second_page_le {pageSize stop : Nat} (past : pageSize < stop) (page : pageSize ∣ stop) : 2 * pageSize ≤ stop :=
  Nat.le_of_lt_add_of_dvd (by omega) (Nat.dvd_mul_left _ _) page

section Blank

variable {front : Image} {header : Header} {count : Nat} (page : front.size ≤ header.pageSize)

include page

theorem not_read_of_zeros (stop : Nat) (trailer : Trailer) :
    Trailer.readEndingAt (front ++ .ofBytes (Bytes.zeros count)) stop header.pageSize ≠ .ok trailer := by
  intro read
  obtain ⟨above, -, -, spelled, -⟩ := Trailer.readEndingAt_ok_iff.mp read
  exact slice_zeros_ne_encode front count (page.trans (Nat.le_sub_of_add_le above)) trailer spelled

variable (decoded : Header.decode (front ++ .ofBytes (Bytes.zeros count)) = .ok header)

include decoded

theorem not_counts_of_zeros (blocks : Nat) : ¬ Counts (front ++ .ofBytes (Bytes.zeros count)) blocks := by
  rintro ⟨again, stop, trailer, same, read, -⟩
  obtain rfl := Except.ok.inj (decoded.symm.trans same)
  exact not_read_of_zeros page stop trailer read

theorem tame_of_zeros : Tame (front ++ .ofBytes (Bytes.zeros count)) := by
  intro again trailer same fits past boundary spelled
  obtain rfl := Except.ok.inj (decoded.symm.trans same)
  have bounds := pageSize_bounds decoded
  have second := second_page_le past boundary
  have behind : front.size ≤ trailer.offset := by
    unfold Trailer.offset Trailer.size
    omega
  exact absurd spelled (slice_zeros_ne_encode front count behind trailer)

end Blank

/-- Two pages have room for the end of one trailer. -/
theorem tame_of_two_pages {image : Image} {header : Header} {trailer : Trailer}
    (decoded : Header.decode image = .ok header) (pages : image.size = 2 * header.pageSize)
    (read : Trailer.readEndingAt image image.size header.pageSize = .ok trailer)
    (small : trailer.previousTrailer ≤ 256 ^ 8 - 41) : Tame image := by
  intro again other same fits past boundary spelled
  obtain rfl := Except.ok.inj (decoded.symm.trans same)
  have bounds := pageSize_bounds decoded
  have second := second_page_le past boundary
  have length := congrArg List.length spelled
  rw [Image.length_slice, Trailer.length_encode] at length
  have place : other.offset = image.size - Trailer.size := by
    unfold Trailer.offset Trailer.size at *
    omega
  obtain ⟨-, -, -, slice, whole, -⟩ := Trailer.readEndingAt_ok_iff.mp read
  have one : other = trailer := by
    rw [← Trailer.ofBytes_encode fits, ← spelled, place, slice, Trailer.ofBytes_encode whole]
  exact one ▸ small

theorem decode_newImage_append {settings : Settings} (valid : settings.validate = .ok ()) (rest : Image) :
    Header.decode (Handle.newImage settings ++ rest) = .ok (Header.ofPageSize settings.pageSize) :=
  ((Handle.grounded_new valid).parts_behind rest).1

/-! ### Opening a store -/

/-- Opening a store of any bytes whatever, with every access watched. -/
def openStore (grants : Nat → Bool) (mode : OpenMode) (settings : Settings) (store : MemoryStore) :
    Guarded DatabaseError Handle :=
  match settings.validate with
  | .error error => throw (.settings error)
  | .ok () =>
    match (Handle.readImage MemoryStore.device mode settings store).1 with
    | .error error => throw (.storage error)
    | .ok image => ExceptT.adapt .storage do return (← ofImage grants image mode settings MemoryStore.device.location).1

section Store

variable {grants : Nat → Bool} {store : MemoryStore} {settings : Settings} (tame : Tame store.image)
  (memory : store.image.size < 2 ^ 63) (mode : OpenMode)

include tame memory

theorem openStore_gives :
    Gives grants (Counts store.image) (openStore grants mode settings store)
      (Handle.load MemoryStore.device mode settings store).1.result := by
  unfold openStore Handle.load
  cases valid : settings.validate with
  | error error => exact .inl rfl
  | ok done =>
    simp only [run_bind]
    cases read : (Handle.readImage MemoryStore.device mode settings store).1 with
    | error error => exact .inl rfl
    | ok image =>
      have opened : Gives grants (Counts store.image) (ofImage grants image mode settings MemoryStore.device.location)
          (Handle.ofImage image mode settings MemoryStore.device.location) := by
        obtain rfl | rfl := Handle.readImage_cases read
        · exact ofImage_gives tame memory mode settings _
        · have bounds := pageSize_pos (Handle.isPageSize_of_validate valid)
          have blank : Handle.newImage settings = Handle.newImage settings ++ .ofBytes (Bytes.zeros 0) :=
            Image.ext (by simp [Bytes.zeros])
          have whole := Handle.size_newImage settings
          have small : (Handle.newImage settings).size < 2 ^ 63 := by omega
          have decoded := decode_newImage_append valid (.ofBytes (Bytes.zeros 0))
          have fresh : Gives grants _ _
              (Handle.ofImage (Handle.newImage settings) mode settings MemoryStore.device.location) :=
            ofImage_gives (blank ▸ tame_of_zeros whole.le decoded) small mode settings _
          -- a fresh image has no trailer that could count blocks
          obtain came | ⟨count, counted, -⟩ := fresh
          · exact .inl came
          · exact absurd (blank ▸ counted) (not_counts_of_zeros whole.le decoded count)
      dsimp only
      rcases opened with came | ⟨count, counted, kept, came⟩
      · rw [came]
        cases Handle.ofImage image mode settings MemoryStore.device.location <;> exact .inl rfl
      · rw [came]
        exact .inr ⟨count, counted, kept, rfl⟩

/-- Where the trailer at the last page boundary counts more blocks than there is room for, opening is
halted, whatever stands where the blocks would be. -/
theorem openStore_of_refused (faultless : store.Faultless) (valid : settings.validate = .ok ()) {header : Header}
    {trailer : Trailer} (decoded : Header.decode store.image = .ok header) (long : 2 * header.pageSize ≤ store.image.size)
    (read : Trailer.readEndingAt store.image (store.image.size / header.pageSize * header.pageSize) header.pageSize
      = .ok trailer) (kept : grants trailer.blockCount = false) :
    openStore grants mode settings store = halted (.noRoom trailer.blockCount) := by
  have bounds := pageSize_bounds decoded
  have above := (stop_of_read read).2.1
  have came : load grants store.image.bytes = halted (.noRoom trailer.blockCount) := by
    rw [load_eq_scan memory decoded long, scan, plus_eq (by unfold Trailer.size; omega), pure_bind,
      if_neg (by unfold Trailer.size; omega), validate_eq tame memory decoded read, blocks_eq read, reserve_of_refused kept]
    rfl
  unfold openStore
  rw [Handle.readImage_of_filled mode settings (show 0 < store.image.size by omega), faultless.readAll.1]
  simp only [valid]
  unfold ofImage
  rw [came]
  rfl

end Store

end Guarded
end CheckpointStore
