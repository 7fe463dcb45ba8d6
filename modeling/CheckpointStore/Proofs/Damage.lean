import CheckpointStore.Proofs.Checksums
import CheckpointStore.Proofs.Crashes
import CheckpointStore.Proofs.Refusals

/-!
# Single-byte damage

One byte of an image is changed. Where the byte belongs to the header, to a trailer on the chain or
to a block that such a trailer counts, no reading accepts what it accepted before, since the
checksum behind the byte tells. Every other byte is padding or an orphan, and changing it changes
nothing that an opening finds.
-/

namespace CheckpointStore

/-! ### Images that differ in one byte -/

namespace Image

/-- The images are the same but for the byte at a position. -/
def DifferAt (a b : Image) (position : Nat) : Prop := Bytes.DifferAt a.bytes b.bytes position

/-- The image with the lowest bit flipped at a position. -/
def flip (image : Image) (position : Nat) : Image :=
  .ofBytes (image.bytes.set position (image.bytes.getD position 0 ^^^ 1))

variable {a b : Image} {position start length : Nat}

theorem DifferAt.size_eq (differ : a.DifferAt b position) : a.size = b.size := by
  rw [← length_bytes, ← length_bytes, Bytes.DifferAt.length_eq differ]

theorem DifferAt.lt (differ : a.DifferAt b position) : position < a.size := by
  rw [← length_bytes]
  exact Bytes.DifferAt.lt differ

theorem DifferAt.slice_eq (differ : a.DifferAt b position) (outside : position < start ∨ start + length ≤ position) :
    a.slice start length = b.slice start length := by
  rw [Image.slice_eq, Image.slice_eq, Bytes.DifferAt.slice_eq differ outside]

theorem DifferAt.slice (differ : a.DifferAt b position) (after : start ≤ position) (before : position < start + length) :
    Bytes.DifferAt (a.slice start length) (b.slice start length) (position - start) := by
  rw [Image.slice_eq, Image.slice_eq]
  exact Bytes.DifferAt.slice differ after before

theorem differAt_flip {image : Image} (inside : position < image.size) : image.DifferAt (image.flip position) position := by
  rw [← length_bytes] at inside
  have split := (List.take_append_drop position image.bytes).symm
  rw [List.drop_eq_getElem_cons inside] at split
  refine ⟨image.bytes.take position, image.bytes[position], image.bytes[position] ^^^ 1, image.bytes.drop (position + 1),
    List.length_take_of_le (Nat.le_of_lt inside), ?_, split, ?_⟩
  · intro same
    have zero := UInt8.xor_right_inj image.bytes[position] |>.mp (same.symm.trans UInt8.xor_zero.symm)
    exact absurd zero (by decide)
  · rw [flip, bytes_ofBytes, List.getD_eq_getElem _ _ inside, List.set_eq_take_append_cons_drop, if_pos inside]

end Image

/-! ### The formats -/

theorem Bytes.DifferAt.read_eq {a b : Bytes} {position start width : Nat} (differ : DifferAt a b position)
    (outside : position < start ∨ start + width ≤ position) :
    LittleEndian.read a start width = LittleEndian.read b start width :=
  congrArg LittleEndian.decode (differ.slice_eq outside)

theorem Header.decode_damaged {a b : Image} {position : Nat} {header other : Header} (differ : a.DifferAt b position)
    (inside : position < size) (decoded : decode a = .ok header) : decode b ≠ .ok other := by
  intro again
  obtain ⟨-, -, -, before⟩ := decode_ok_iff.mp decoded
  obtain ⟨-, -, -, after⟩ := decode_ok_iff.mp again
  have changed : Bytes.DifferAt (a.slice 0 size) (b.slice 0 size) position := differ.slice (Nat.zero_le _) (by omega)
  rw [before, after] at changed
  exact Bytes.sealed_not_differAt (by simp [fields, magic]) changed

theorem Header.decode_undamaged {a b : Image} {position : Nat} (differ : a.DifferAt b position)
    (outside : size ≤ position) : decode b = decode a := by
  have raw : a.slice 0 size = b.slice 0 size := differ.slice_eq (.inr (by omega))
  unfold decode
  rw [raw, differ.size_eq]

namespace Trailer

/-- The position is one of the bytes of the trailer. -/
def Covers (trailer : Trailer) (position : Nat) : Prop := trailer.offset ≤ position ∧ position < trailer.checkpointSize

variable {a b : Image} {position stop pageSize : Nat} {trailer other : Trailer}

theorem readEndingAt_damaged (differ : a.DifferAt b position) (read : readEndingAt a stop pageSize = .ok trailer)
    (covers : trailer.Covers position) : readEndingAt b stop pageSize ≠ .ok other := by
  intro again
  obtain ⟨above, -, -, before, -, placed⟩ := readEndingAt_ok_iff.mp read
  obtain ⟨-, -, -, after, -, -⟩ := readEndingAt_ok_iff.mp again
  obtain ⟨low, high⟩ := covers
  rw [offset, placed.ends] at low
  rw [placed.ends] at high
  have changed : Bytes.DifferAt (a.slice (stop - size) size) (b.slice (stop - size) size) (position - (stop - size)) :=
    differ.slice low (by omega)
  rw [before, after] at changed
  exact Bytes.sealed_not_differAt (by rw [length_fields, length_fields]) changed

theorem readEndingAt_undamaged (differ : a.DifferAt b position) (read : readEndingAt a stop pageSize = .ok trailer)
    (apart : ¬ trailer.Covers position) : readEndingAt b stop pageSize = .ok trailer := by
  obtain ⟨above, inside, aligned, bytes, fits, placed⟩ := readEndingAt_ok_iff.mp read
  rw [Covers, offset, placed.ends] at apart
  rw [differ.slice_eq (by omega)] at bytes
  rw [differ.size_eq] at inside
  exact readEndingAt_ok_iff.mpr ⟨above, inside, aligned, bytes, fits, placed⟩

end Trailer

namespace Block

/-- The position is one of the bytes of the block. -/
def Covers (block : Block) (position : Nat) : Prop := block.offset ≤ position ∧ position < block.stop

variable {a b : Bytes} {position offset : Nat} {block other : Block}

/-- The length field of a block is told by the rest of its fields, so damage to it alone is noticed. -/
theorem encodedLength_of_differAt {change other : Change} {rest restOther : Bytes} (fits : change.Fits) (fitsOther : other.Fits)
    (differ : Bytes.DifferAt (change.encode ++ rest) (other.encode ++ restOther) position) :
    other.encodedLength = change.encodedLength := by
  have size : change.encodedLength = 17 + change.key.length + change.valueBytes.length := rfl
  have sizeOther : other.encodedLength = 17 + other.key.length + other.valueBytes.length := rfl
  rcases Nat.lt_or_ge position 4 with early | late
  · have inner (written : Change) (behind : Bytes) {start : Nat} (inside : start + 4 ≤ written.encodedLength) :
        LittleEndian.read (written.encode ++ behind) start 4 = LittleEndian.read written.encode start 4 := by
      rw [LittleEndian.read, Bytes.slice_append_of_le (by rw [Change.length_encode]; exact inside), ← LittleEndian.read]
    have key : LittleEndian.read (change.encode ++ rest) 5 4 = LittleEndian.read (other.encode ++ restOther) 5 4 :=
      differ.read_eq (.inl (by omega))
    rw [inner _ _ (by omega), inner _ _ (by omega), read_keyLength_encode fits, read_keyLength_encode fitsOther] at key
    have value : LittleEndian.read (change.encode ++ rest) (9 + change.key.length) 4
        = LittleEndian.read (other.encode ++ restOther) (9 + change.key.length) 4 := differ.read_eq (.inl (by omega))
    rw [inner _ _ (by omega), inner _ _ (by omega), read_valueLength_encode fits, key, read_valueLength_encode fitsOther] at value
    omega
  · have length : LittleEndian.read (change.encode ++ rest) 0 4 = LittleEndian.read (other.encode ++ restOther) 0 4 :=
      differ.read_eq (.inr late)
    rw [read_length_encode fits, read_length_encode fitsOther] at length
    exact length.symm

theorem decode_damaged (differ : Bytes.DifferAt a b position) (read : decode a offset = .ok block)
    (inside : position < block.length) : decode b offset ≠ .ok other := by
  intro again
  obtain ⟨-, fits, rest, rfl⟩ := decode_ok_iff.mp read
  obtain ⟨-, fitsOther, restOther, rfl⟩ := decode_ok_iff.mp again
  have length := encodedLength_of_differAt fits fitsOther differ
  have changed : Bytes.DifferAt (Bytes.slice (block.change.encode ++ rest) 0 block.change.encodedLength)
      (Bytes.slice (other.change.encode ++ restOther) 0 block.change.encodedLength) position :=
    differ.slice (Nat.zero_le _) (by rw [Nat.zero_add]; exact inside)
  rw [Bytes.slice_from_zero, Bytes.slice_from_zero, List.take_left' (Change.length_encode _),
    List.take_left' ((Change.length_encode _).trans length)] at changed
  refine Bytes.sealed_not_differAt ?_ changed
  have one := Change.length_fields block.change
  have two := Change.length_fields other.change
  omega

theorem decode_undamaged (differ : Bytes.DifferAt a b position) (read : decode a offset = .ok block)
    (behind : block.length ≤ position) : decode b offset = .ok block := by
  obtain ⟨place, fits, rest, rfl⟩ := decode_ok_iff.mp read
  have front : Bytes.slice (block.change.encode ++ rest) 0 block.change.encodedLength
      = b.slice 0 block.change.encodedLength := differ.slice_eq (.inr (by rw [Nat.zero_add]; exact behind))
  rw [Bytes.slice_from_zero, Bytes.slice_from_zero, List.take_left' (Change.length_encode _)] at front
  refine decode_ok_iff.mpr ⟨place, fits, b.drop block.change.encodedLength, ?_⟩
  rw [front, List.take_append_drop]

end Block

/-! ### Runs of blocks -/

section Blocks

variable {a b : Bytes} {position count offset : Nat} {blocks others : List Block}

theorem readBlocks_damaged (differ : Bytes.DifferAt a b position) (read : readBlocks count a offset = .ok blocks)
    {block : Block} (mem : block ∈ blocks) (covers : block.Covers (offset + position)) :
    readBlocks count b offset ≠ .ok others := by
  induction count generalizing a b position offset blocks others with
  | zero =>
    obtain rfl := Except.ok.inj read
    contradiction
  | succ count ih =>
    intro again
    obtain ⟨first, rest, decoded, later, rfl⟩ := readBlocks_succ_ok_iff.mp read
    obtain ⟨other, restOther, decodedOther, laterOther, -⟩ := readBlocks_succ_ok_iff.mp again
    rcases Nat.lt_or_ge position first.length with inside | behind
    · exact Block.decode_damaged differ decoded inside decodedOther
    · -- the first block is whole, so the damage is in one of those behind it
      have same := Block.decode_undamaged differ decoded behind
      obtain rfl := Except.ok.inj (same.symm.trans decodedOther)
      have start := (Block.decode_ok_iff.mp decoded).1
      have stop : first.stop = first.offset + first.length := rfl
      have place : first.stop + (position - first.length) = offset + position := by omega
      rcases List.mem_cons.mp mem with rfl | mem
      · have below := covers.2
        omega
      · exact ih (differ.drop behind) later mem (by rw [place]; exact covers) laterOther

theorem readBlocks_undamaged (differ : Bytes.DifferAt a b position) (read : readBlocks count a offset = .ok blocks)
    (apart : ∀ block ∈ blocks, ¬ block.Covers (offset + position)) : readBlocks count b offset = .ok blocks := by
  induction count generalizing a b position offset blocks with
  | zero => exact read
  | succ count ih =>
    obtain ⟨first, rest, decoded, later, rfl⟩ := readBlocks_succ_ok_iff.mp read
    have start := (Block.decode_ok_iff.mp decoded).1
    have stop : first.stop = first.offset + first.length := rfl
    have behind : first.length ≤ position := by
      have missed := apart first List.mem_cons_self
      unfold Block.Covers at missed
      omega
    have place : first.stop + (position - first.length) = offset + position := by omega
    refine readBlocks_succ_ok_iff.mpr ⟨first, rest, Block.decode_undamaged differ decoded behind, ?_, rfl⟩
    refine ih (differ.drop behind) later ?_
    rw [place]
    exact fun block mem => apart block (List.mem_cons_of_mem _ mem)

end Blocks

namespace Trailer

variable {a b : Image} {position : Nat} {trailer : Trailer} {blocks others : List Block}

theorem blocks_damaged (differ : a.DifferAt b position) (parsed : trailer.blocks a = .ok blocks) {block : Block}
    (mem : block ∈ blocks) (covers : block.Covers position) : trailer.blocks b ≠ .ok others := by
  obtain ⟨after, before⟩ := covers
  obtain ⟨low, high⟩ := window_of_blocks parsed block mem
  have place : trailer.blocksStart + (position - trailer.blocksStart) = position := by omega
  exact readBlocks_damaged (differ.slice (by omega) (by omega)) parsed mem (by rw [place]; exact ⟨after, before⟩)

theorem blocks_undamaged (differ : a.DifferAt b position) (parsed : trailer.blocks a = .ok blocks)
    (apart : ∀ block ∈ blocks, ¬ block.Covers position) : trailer.blocks b = .ok blocks := by
  by_cases inside : trailer.blocksStart ≤ position ∧ position < trailer.blocksStart + (trailer.offset - trailer.blocksStart)
  · have place : trailer.blocksStart + (position - trailer.blocksStart) = position := by omega
    exact readBlocks_undamaged (differ.slice inside.1 inside.2) parsed (by rw [place]; exact apart)
  · rw [← parsed]
    unfold Trailer.blocks
    rw [differ.slice_eq (by omega)]

end Trailer

/-! ### The chain -/

section Chain

variable {a b : Image} {position pageSize stop : Nat} {trailers others : List Trailer}

theorem Walk.damaged (differ : a.DifferAt b position) (walk : Walk a pageSize stop trailers) {trailer : Trailer}
    (mem : trailer ∈ trailers) (covers : trailer.Covers position) : ¬ Walk b pageSize stop others := by
  induction walk generalizing others with
  | header => contradiction
  | @step stop first rest read walked ih =>
    intro again
    cases again with
    | header =>
      have above := (stop_of_read read).2.1
      omega
    | step readOther walkedOther =>
      by_cases hit : first.Covers position
      · exact Trailer.readEndingAt_damaged differ read hit readOther
      · have same := Trailer.readEndingAt_undamaged differ read hit
        obtain rfl := Except.ok.inj (same.symm.trans readOther)
        rcases List.mem_cons.mp mem with rfl | mem
        · exact hit covers
        · exact ih mem walkedOther

theorem Walk.undamaged (differ : a.DifferAt b position) (walk : Walk a pageSize stop trailers)
    (apart : ∀ trailer ∈ trailers, ¬ trailer.Covers position) : Walk b pageSize stop trailers := by
  induction walk with
  | header => exact .header
  | step read _ ih =>
    exact .step (Trailer.readEndingAt_undamaged differ read (apart _ List.mem_cons_self))
      (ih fun trailer mem => apart trailer (List.mem_cons_of_mem _ mem))

end Chain

/-! ### What an opening makes of the damage -/

namespace Handle

open MemoryStore

/-- The position is in the header, in a trailer on the chain, or in a block that such a trailer counts. -/
def Covers (handle : Handle) (position : Nat) : Prop :=
  position < Header.size ∨
    ∃ trailers, chain handle.image handle.pageSize handle.checkpoint = .ok trailers ∧
      ∃ trailer ∈ trailers, trailer.Covers position ∨
        ∃ blocks, trailer.blocks handle.image = .ok blocks ∧ ∃ block ∈ blocks, block.Covers position

section Damaged

variable {handle fresh : Handle} {damaged : Image} {position : Nat}

theorem not_covers_of_padding (after : Header.size ≤ position) (before : position < handle.pageSize) :
    ¬ handle.Covers position := by
  rintro (inside | ⟨trailers, walked, trailer, mem, hit⟩)
  · omega
  obtain ⟨-, -, -, -, -, placed⟩ := Trailer.readEndingAt_ok_iff.mp ((chain_ok_iff.mp walked).read trailer mem)
  have past := placed.afterHeader
  have behind := placed.beforeTrailer
  rcases hit with ⟨low, -⟩ | ⟨blocks, parsed, block, held, low, -⟩
  · omega
  · have inside := (Trailer.window_of_blocks parsed block held).1
    omega

theorem Grounded.mem_of_current (grounded : handle.Grounded) {trailer : Trailer} (current : handle.current = some trailer)
    {trailers : List Trailer} (walk : Walk handle.image handle.pageSize handle.checkpoint trailers) : trailer ∈ trailers := by
  have newest := (validateCheckpoint_ok_iff.mp (grounded.current trailer current).valid).1
  rw [checkpoint_of_current current] at walk
  generalize trailer.checkpointSize = stop at walk newest
  cases walk with
  | header =>
    have above := (stop_of_read newest).2.1
    omega
  | step read _ =>
    obtain rfl := Except.ok.inj (read.symm.trans newest)
    exact List.mem_cons_self

theorem Grounded.covers_of_current (grounded : handle.Grounded) {trailer : Trailer} (current : handle.current = some trailer)
    {blocks : List Block} (parsed : trailer.blocks handle.image = .ok blocks) {block : Block} (mem : block ∈ blocks)
    (covers : block.Covers position) : handle.Covers position := by
  obtain ⟨trailers, walk, -⟩ := grounded.walk
  exact .inr ⟨trailers, chain_ok_iff.mpr walk, trailer, grounded.mem_of_current current walk,
    .inr ⟨blocks, parsed, block, mem, covers⟩⟩

theorem Grounded.covers_advanced (grounded : handle.Grounded) {changes : List Change}
    (count : changes.length < PendingCheckpoint.countLimit) (fit : ∀ change ∈ changes, change.Fits)
    (addressable : (handle.advanced changes).image.size < 256 ^ 8) {block : Block}
    (mem : block ∈ Block.place handle.image.size changes) (covers : block.Covers position) :
    (handle.advanced changes).Covers position :=
  (grounded_advanced grounded count fit addressable).covers_of_current rfl
    (grounded.read_advanced count fit addressable).2 mem covers

/-- Whatever is found of an image with a covered byte changed, it is another checkpoint. -/
theorem Grounded.checkpoint_ne_of_damaged (grounded : handle.Grounded) (differ : handle.image.DifferAt damaged position)
    (covers : handle.Covers position) (found : fresh.Grounded) (image : fresh.image = damaged) :
    fresh.checkpoint ≠ handle.checkpoint := by
  intro same
  have decoded := found.header
  rw [image] at decoded
  rcases Nat.lt_or_ge position Header.size with inside | outside
  · exact Header.decode_damaged differ inside grounded.header decoded
  rw [Header.decode_undamaged differ outside, grounded.header] at decoded
  have page : fresh.pageSize = handle.pageSize := congrArg Header.pageSize (Except.ok.inj decoded).symm
  obtain ⟨others, again, -⟩ := found.walk
  have index := found.index
  rw [image, page, same] at again index
  rcases covers with inside | ⟨trailers, walked, trailer, mem, hit⟩
  · omega
  have walk := chain_ok_iff.mp walked
  by_cases broken : ∃ other ∈ trailers, other.Covers position
  · obtain ⟨other, here, covers⟩ := broken
    exact walk.damaged differ here covers again
  · have whole := walk.undamaged differ fun other here covers => broken ⟨other, here, covers⟩
    rcases hit with covers | ⟨blocks, parsed, block, held, covers⟩
    · exact broken ⟨trailer, mem, covers⟩
    · -- the chain is whole, but the index is not built past the damaged block
      rw [LiveIndex.build_of_walk whole] at index
      obtain ⟨accepted, reread⟩ := LiveIndex.blocks_of_applyAll index trailer (List.mem_reverse.mpr mem)
      exact Trailer.blocks_damaged differ parsed held covers reread

/-- What the handle reads is the same where no byte that is read is changed. -/
theorem Grounded.parts_undamaged (grounded : handle.Grounded) (differ : handle.image.DifferAt damaged position)
    (apart : ¬ handle.Covers position) :
    Header.decode damaged = .ok handle.header ∧
      ∃ trailers, Walk handle.image handle.pageSize handle.checkpoint trailers ∧
        Walk damaged handle.pageSize handle.checkpoint trailers ∧ handle.history = trailers.map Trailer.checkpointSize ∧
        ∀ trailer ∈ trailers, ∃ blocks, trailer.blocks handle.image = .ok blocks ∧ trailer.blocks damaged = .ok blocks ∧
          ∀ block ∈ blocks, ¬ block.Covers position := by
  have outside : Header.size ≤ position := Nat.le_of_not_lt fun inside => apart (.inl inside)
  obtain ⟨trailers, walk, history⟩ := grounded.walk
  have missed : ∀ trailer ∈ trailers, ¬ (trailer.Covers position ∨
      ∃ blocks, trailer.blocks handle.image = .ok blocks ∧ ∃ block ∈ blocks, block.Covers position) :=
    fun trailer mem hit => apart (.inr ⟨trailers, chain_ok_iff.mpr walk, trailer, mem, hit⟩)
  have built := grounded.index
  rw [LiveIndex.build_of_walk walk] at built
  refine ⟨(Header.decode_undamaged differ outside).trans grounded.header, trailers, walk,
    walk.undamaged differ fun trailer mem covers => missed trailer mem (.inl covers), history, ?_⟩
  intro trailer mem
  obtain ⟨blocks, parsed⟩ := LiveIndex.blocks_of_applyAll built trailer (List.mem_reverse.mpr mem)
  have clear : ∀ block ∈ blocks, ¬ block.Covers position :=
    fun block held covers => missed trailer mem (.inr ⟨blocks, parsed, block, held, covers⟩)
  exact ⟨blocks, parsed, Trailer.blocks_undamaged differ parsed clear, clear⟩

/-- An image that ends with its newest checkpoint holds what it held when a byte is changed that is not read. -/
theorem Grounded.undamaged (grounded : handle.Grounded) (committed : handle.checkpoint ≠ 0)
    (whole : handle.checkpoint = handle.image.size) (differ : handle.image.DifferAt damaged position)
    (apart : ¬ handle.Covers position) : ({ handle with image := damaged } : Handle).Grounded := by
  obtain ⟨header, trailers, walk, again, history, same⟩ := grounded.parts_undamaged differ apart
  refine ⟨header, ?_, ?_, ⟨trailers, again, history⟩, ?_⟩
  · intro trailer current
    have newest := grounded.current trailer current
    have mem := grounded.mem_of_current current walk
    obtain ⟨blocks, -, parsed, -⟩ := same trailer mem
    refine ⟨validateCheckpoint_ok_iff.mpr ⟨again.read trailer mem, blocks, parsed⟩, ?_⟩
    intro stop later valid
    have inside := (stop_of_valid valid).2.2.1
    have ends : handle.checkpoint = trailer.checkpointSize := checkpoint_of_current current
    have size := differ.size_eq
    dsimp only at inside
    omega
  · intro none
    exact absurd (grounded.checkpoint_eq_zero_iff.mpr none) committed
  · have congruent : ∀ trailer ∈ trailers.reverse, trailer.blocks damaged = trailer.blocks handle.image := by
      intro trailer mem
      obtain ⟨blocks, before, after, -⟩ := same trailer (List.mem_reverse.mp mem)
      rw [before, after]
    have built := grounded.index
    rw [LiveIndex.build_of_walk walk] at built
    show LiveIndex.build damaged handle.pageSize handle.checkpoint = .ok handle.index
    rw [LiveIndex.build_of_walk again, LiveIndex.applyAll_congr congruent, built]

theorem Grounded.value_undamaged (grounded : handle.Grounded) (differ : handle.image.DifferAt damaged position)
    (apart : ¬ handle.Covers position) :
    ∀ key entry, handle.index.entries.get? key = some entry → entry.value damaged = entry.value handle.image := by
  obtain ⟨-, trailers, walk, -, -, same⟩ := grounded.parts_undamaged differ apart
  refine LiveIndex.every_build walk grounded.index ?_
  intro trailer mem blocks parsed block held value written
  obtain ⟨others, again, -, clear⟩ := same trailer mem
  obtain rfl := Except.ok.inj (again.symm.trans parsed)
  have missed := clear block held
  have start : block.valueOffset = block.offset + 13 + block.change.key.length := rfl
  have stop : block.stop = block.offset + (17 + block.change.key.length + block.change.valueBytes.length) := rfl
  rw [Change.valueBytes, written, Option.getD_some] at stop
  unfold Block.Covers at missed
  exact (differ.slice_eq (by dsimp only; omega)).symm

theorem Grounded.opens_undamaged (grounded : handle.Grounded) (committed : handle.checkpoint ≠ 0)
    (whole : handle.checkpoint = handle.image.size) (empty : handle.staged = KeyMap.empty)
    (differ : handle.image.DifferAt damaged position) (apart : ¬ handle.Covers position) :
    Opens damaged fun fresh _ =>
      fresh.recovery = .clean ∧ fresh.checkpoint = handle.checkpoint ∧ fresh.history = handle.history ∧
        fresh.documents = handle.documents := by
  have ends := grounded.validEnd_of_committed committed
  refine opens_of_grounded (grounded.undamaged committed whole differ apart) fun mode settings location after same faultless =>
    ⟨Recovery.past_eq_clean_iff.mpr ((ends.trans whole).trans differ.size_eq), rfl, rfl, ?_⟩
  refine documentsFrom_congr (Sound.of_staged_empty rfl) (Sound.of_staged_empty empty) ?_ []
  intro key
  rw [get?_of_staged_empty rfl, get?_of_staged_empty empty]
  exact Option.map_congr fun entry found => grounded.value_undamaged differ apart key entry found

/-- A byte of an image that opens clean is changed. If it is covered, no opening finds the checkpoint
again: without faults it finds another or is refused fatally. If it is not, every opening finds the
same checkpoint with the same history and documents, and finds it clean. -/
theorem changed_byte_noticed_iff_covered {store : MemoryStore} {mode : OpenMode} {settings : Settings}
    (opened : (load device mode settings store).1.result = .ok handle) (clean : handle.recovery = .clean)
    (committed : handle.checkpoint ≠ 0) (differ : store.image.DifferAt damaged position) :
    (handle.Covers position →
      (∀ mode settings (store : MemoryStore) fresh, store.image = damaged →
        (load device mode settings store).1.result = .ok fresh → fresh.checkpoint ≠ handle.checkpoint) ∧
      ∀ mode settings, settings.validate = .ok () →
        (∃ fresh, (load device mode settings { image := damaged }).1.result = .ok fresh ∧
          fresh.checkpoint ≠ handle.checkpoint) ∨
        ∃ error, (load device mode settings { image := damaged }).1.result = .error error ∧ error.severity = .fatal) ∧
      (¬ handle.Covers position → Opens damaged fun fresh _ =>
        fresh.recovery = .clean ∧ fresh.checkpoint = handle.checkpoint ∧ fresh.history = handle.history ∧
          fresh.documents = handle.documents) := by
  obtain ⟨left, grounded, again⟩ := of_load opened
  have filled : 0 < damaged.size := by
    have inside := differ.lt
    have size := differ.size_eq
    omega
  have image : handle.image = store.image := left.symm.trans (image_load store mode settings (differ.size_eq ▸ filled))
  rw [← image] at differ
  constructor
  · intro covers
    have missed : ∀ mode settings (store : MemoryStore) fresh, store.image = damaged →
        (load device mode settings store).1.result = .ok fresh → fresh.checkpoint ≠ handle.checkpoint := by
      intro mode settings store fresh stored opened
      obtain ⟨left, found, -⟩ := of_load opened
      have kept := image_load store mode settings (stored ▸ filled)
      exact grounded.checkpoint_ne_of_damaged differ covers found ((left.symm.trans kept).trans stored)
    refine ⟨missed, ?_⟩
    intro mode settings valid
    have faultless : MemoryStore.Faultless { image := damaged } := rfl
    rcases opened_or_fatal mode faultless filled valid with ⟨fresh, opened⟩ | refused
    · exact .inl ⟨fresh, opened, missed mode settings _ fresh rfl opened⟩
    · exact .inr refused
  · intro apart
    have ends := grounded.validEnd_of_committed committed
    have whole := Recovery.past_eq_clean_iff.mp ((congrArg Handle.recovery again).symm.trans clean)
    exact grounded.opens_undamaged committed (ends.symm.trans whole) (congrArg Handle.staged again) differ apart

/-- A flipped value is noticed, and a flipped byte of the header's padding is not. -/
theorem flipped_value_noticed :
    ∃ handle : Handle, (load device .readOnly {} { image := handle.image }).1.result = .ok handle ∧
      handle.recovery = .clean ∧ handle.checkpoint = 1024 ∧
      (∀ mode settings (store : MemoryStore) fresh, store.image = handle.image.flip 526 →
        (load device mode settings store).1.result = .ok fresh → fresh.checkpoint ≠ 1024) ∧
      Opens (handle.image.flip 100) fun fresh _ => fresh.checkpoint = 1024 ∧ fresh.documents = handle.documents := by
  have accepted : Settings.validate { pageSize := 512 } = .ok () := rfl
  have fit : ∀ change ∈ [(⟨[0x61], some [0x31]⟩ : Change)], change.Fits := by decide
  have room : roundUp (512 + (17 + [(0x61 : UInt8)].length + [(0x31 : UInt8)].length) + 40) 512 = 1024 := by decide
  obtain ⟨size, checkpoint⟩ := Session.size_advanced_new accepted [0x61] [0x31]
  rw [room] at size checkpoint
  have fresh := grounded_new accepted
  have covers : ((new { pageSize := 512 }).advanced [⟨[0x61], some [0x31]⟩]).Covers 526 := by
    refine fresh.covers_advanced (by decide) fit (size ▸ by decide) List.mem_cons_self ?_
    rw [show (new { pageSize := 512 }).image.size = 512 from size_newImage _]
    exact ⟨by decide, by decide⟩
  have grounded := grounded_advanced fresh (by decide) fit (size ▸ by decide)
  have page : ((new { pageSize := 512 }).advanced [⟨[0x61], some [0x31]⟩]).pageSize = 512 := rfl
  have ends := fresh.size_advanced [⟨[0x61], some [0x31]⟩]
  generalize held : (new { pageSize := 512 }).advanced [⟨[0x61], some [0x31]⟩] = handle at *
  have past : Recovery.past handle.image.size handle.validEnd = .clean := by
    refine Recovery.past_eq_clean_iff.mpr (ends.symm ▸ ?_)
    rw [← held]
    rfl
  obtain ⟨opened, -, -⟩ := load_of_grounded .readOnly grounded
    (rfl : MemoryStore.Faultless { image := handle.image }) rfl validate_default
  have padding : ¬ handle.Covers 100 := not_covers_of_padding (by decide) (page ▸ by decide)
  have committed : handle.checkpoint ≠ 0 := checkpoint ▸ by decide
  refine ⟨handle.reopened .readOnly {} device.location, opened, past, checkpoint, ?_, ?_⟩
  · have noticed := (changed_byte_noticed_iff_covered opened past committed
      (Image.differAt_flip (show 526 < handle.image.size by omega))).1 covers
    exact checkpoint ▸ noticed.1
  · have absorbed := (changed_byte_noticed_iff_covered opened past committed
      (Image.differAt_flip (show 100 < handle.image.size by omega))).2 padding
    exact absorbed.mono fun fresh _ ⟨_, same, _, documents⟩ => ⟨same.trans checkpoint, documents⟩

end Damaged
end Handle
end CheckpointStore
