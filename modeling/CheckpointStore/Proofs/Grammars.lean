import CheckpointStore.Proofs.Checkpoints

/-!
# The grammar of a checkpoint

A boundary closes a checkpoint exactly when a trailer stands whole before it, with its places in
range, and the blocks that it counts are the bytes of that many changes. No other bytes are accepted,
none that are written are refused, and the changes are determined by the bytes.
-/

namespace CheckpointStore

/-- The bytes of the changes, one after the other, lie in the image from `start` and end at or before
`limit`. -/
def Spelled (image : Image) (start limit : Nat) (changes : List Change) : Prop :=
  ∃ bytes, Change.encodeAll? changes = .ok bytes ∧ start + bytes.length ≤ limit ∧
    image.slice start bytes.length = bytes

/-- There is no link, or the trailer that it names ends on a page between the header and the blocks. The
end of one that is named within forty of the last number of eight bytes starts over at zero. -/
def LinksBack (pageSize : Nat) (trailer : Trailer) : Prop :=
  trailer.previousTrailer = 0 ∨
    (pageSize ≤ trailer.previousTrailer ∧ trailer.previousTrailer + 40 ≤ trailer.blocksStart ∧
      pageSize ∣ trailer.previousTrailer + 40) ∨
    (256 ^ 8 - 40 ≤ trailer.previousTrailer ∧ pageSize ≤ trailer.previousTrailer ∧
      trailer.previousTrailer + 40 - 256 ^ 8 ≤ trailer.blocksStart ∧
      pageSize ∣ trailer.previousTrailer + 40 - 256 ^ 8)

/-- A trailer ends at `stop`, and what it records is where a checkpoint that ends there has it. -/
structure Closes (image : Image) (pageSize stop : Nat) (trailer : Trailer) : Prop where
  room : pageSize + 40 ≤ stop
  inside : stop ≤ image.size
  aligned : pageSize ∣ stop
  written : image.slice (stop - 40) 40 = trailer.encode
  fits : trailer.Fits
  ends : trailer.checkpointSize = stop
  afterHeader : pageSize ≤ trailer.blocksStart
  beforeTrailer : trailer.blocksStart ≤ stop - 40
  linked : LinksBack pageSize trailer

/-- The blocks are the changes in order, each with its value where its bytes lie. -/
structure Lists (image : Image) (start : Nat) (changes : List Change) (blocks : List Block) : Prop where
  length : blocks.length = changes.length
  block : ∀ index change, changes[index]? = some change → ∃ block, blocks[index]? = some block ∧
    block.change = change ∧
    block.valueOffset = start + ((changes.take index).flatMap Change.encode).length + 13 + change.key.length ∧
    image.slice block.valueOffset change.valueBytes.length = change.valueBytes

namespace Image

theorem take_slice (image : Image) {start length count : Nat} (le : count ≤ length) :
    (image.slice start length).take count = image.slice start count := by
  rw [← Bytes.slice_from_zero, image.slice_slice (by omega), Nat.add_zero]

/-- A slice begins with the bytes that lie at its start and are no longer. -/
theorem slice_eq_append_iff {image : Image} {start length : Nat} {bytes : Bytes} :
    (∃ rest, image.slice start length = bytes ++ rest) ↔
      bytes.length ≤ length ∧ image.slice start bytes.length = bytes := by
  constructor
  · rintro ⟨rest, split⟩
    have size := congrArg List.length split
    rw [length_slice, List.length_append] at size
    have fits : bytes.length ≤ length := by omega
    refine ⟨fits, ?_⟩
    rw [← image.take_slice fits, split, List.take_left]
  · rintro ⟨fits, lies⟩
    refine ⟨(image.slice start length).drop bytes.length, ?_⟩
    conv_lhs => rw [← List.take_append_drop bytes.length (image.slice start length), image.take_slice fits, lies]

end Image

namespace Change

theorem encode?_ok_iff {change : Change} {bytes : Bytes} :
    change.encode? = .ok bytes ↔ change.Fits ∧ bytes = change.encode := by
  rw [encode?, check_ok_iff, Nat.not_le, Except.ok.injEq, eq_comm (a := change.encode)]
  rfl

end Change

namespace Block

/-- Reading accepts a stretch of the image exactly when it is what some change is written as. -/
theorem decode_slice_ok_iff {image : Image} {offset limit : Nat} {block : Block} :
    decode (image.slice offset (limit - offset)) offset = .ok block ↔
      block.offset = offset ∧ ∃ bytes, block.change.encode? = .ok bytes ∧
        offset + bytes.length ≤ min limit image.size ∧ image.slice offset bytes.length = bytes := by
  have wide : 17 ≤ block.change.encode.length := by
    rw [Change.length_encode]
    unfold Change.encodedLength Change.overhead
    omega
  have whole := image.length_slice offset block.change.encode.length
  rw [decode_ok_iff, Image.slice_eq_append_iff]
  refine and_congr_right fun _ => ?_
  simp only [Change.encode?_ok_iff]
  constructor
  · rintro ⟨fits, short, lies⟩
    rw [lies] at whole
    exact ⟨_, ⟨fits, rfl⟩, by omega, lies⟩
  · rintro ⟨_, ⟨fits, rfl⟩, short, lies⟩
    exact ⟨fits, by omega, lies⟩

theorem getElem?_place (offset index : Nat) (changes : List Change) :
    (place offset changes)[index]? = changes[index]?.map fun change =>
      ⟨offset + ((changes.take index).flatMap Change.encode).length, change⟩ := by
  induction changes generalizing offset index with
  | nil => rfl
  | cons change rest ih =>
    cases index with
    | zero => rfl
    | succ index =>
      rw [place, List.getElem?_cons_succ, List.getElem?_cons_succ, ih, List.take_succ_cons, List.flatMap_cons,
        List.length_append, Change.length_encode, Nat.add_assoc]

theorem place_injective {offset : Nat} {a b : List Change} (same : place offset a = place offset b) : a = b := by
  rw [← map_change_place offset a, same, map_change_place]

end Block

section Spelled

variable {image : Image} {start limit : Nat} {changes others : List Change}

theorem Spelled.readBlocks (spelled : Spelled image start limit changes) :
    readBlocks changes.length (image.slice start (limit - start)) start = .ok (Block.place start changes) := by
  obtain ⟨_, written, inside, lies⟩ := spelled
  obtain ⟨fit, rfl⟩ := Change.encodeAll?_ok_iff.mp written
  obtain ⟨rest, split⟩ := Image.slice_eq_append_iff.mpr ⟨Nat.le_sub_of_add_le' inside, lies⟩
  exact readBlocks_ok_iff.mpr ⟨changes, rest, rfl, fit, split, rfl⟩

theorem spelled_of_readBlocks {count : Nat} {blocks : List Block} (le : start ≤ limit)
    (read : readBlocks count (image.slice start (limit - start)) start = .ok blocks) :
    ∃ changes, changes.length = count ∧ Spelled image start limit changes ∧ blocks = Block.place start changes := by
  obtain ⟨changes, rest, count, fit, split, placed⟩ := readBlocks_ok_iff.mp read
  obtain ⟨short, lies⟩ := Image.slice_eq_append_iff.mp ⟨rest, split⟩
  exact ⟨changes, count, ⟨_, Change.encodeAll?_ok_iff.mpr ⟨fit, rfl⟩, by omega, lies⟩, placed⟩

/-- So many changes are spelled from one place in at most one way. -/
theorem Spelled.unique (spelled : Spelled image start limit changes) (again : Spelled image start limit others)
    (count : others.length = changes.length) : others = changes := by
  have read := again.readBlocks
  rw [count, spelled.readBlocks] at read
  exact (Block.place_injective (Except.ok.inj read)).symm

theorem Spelled.lists (spelled : Spelled image start limit changes) :
    Lists image start changes (Block.place start changes) := by
  obtain ⟨_, written, inside, lies⟩ := spelled
  obtain ⟨fit, rfl⟩ := Change.encodeAll?_ok_iff.mp written
  refine ⟨?_, fun index change found => ?_⟩
  · rw [← List.length_map, Block.map_change_place]
  · have placed := Block.getElem?_place start index changes
    rw [found] at placed
    refine ⟨_, placed, rfl, rfl, ?_⟩
    obtain ⟨front, stands, fits, value⟩ :=
      Block.value_placed (List.append_nil _).symm (List.mem_of_getElem? placed)
    rw [stands, ← image.slice_slice fits, lies, value]

end Spelled

theorem linkInRange_iff_linksBack {pageSize : Nat} {trailer : Trailer} (fits : trailer.Fits) :
    trailer.linkInRange pageSize = true ↔ LinksBack pageSize trailer := by
  have start := fits.blocksStart
  rw [Trailer.linkInRange_iff]
  refine or_congr_right ?_
  by_cases large : 256 ^ 8 ≤ trailer.previousTrailer + 40
  · have past : 256 ^ 8 - 40 ≤ trailer.previousTrailer := Nat.sub_le_of_le_add large
    rw [Trailer.linkEnd_of_le fits large]
    constructor
    · exact fun linked => .inr ⟨past, linked⟩
    · rintro (⟨-, below, -⟩ | ⟨-, linked⟩)
      · omega
      · exact linked
  · rw [Trailer.linkEnd_of_lt (by omega)]
    constructor
    · exact fun linked => .inl linked
    · rintro (linked | ⟨past, -⟩)
      · exact linked
      · omega

theorem readEndingAt_ok_iff_closes {image : Image} {pageSize stop : Nat} {trailer : Trailer} :
    Trailer.readEndingAt image stop pageSize = .ok trailer ↔ Closes image pageSize stop trailer := by
  rw [Trailer.readEndingAt_ok_iff]
  constructor
  · rintro ⟨room, inside, aligned, written, fits, ends, afterHeader, beforeTrailer, linked⟩
    exact ⟨room, inside, Nat.dvd_of_mod_eq_zero aligned, written, fits, ends, afterHeader, ends ▸ beforeTrailer,
      (linkInRange_iff_linksBack fits).mp linked⟩
  · rintro ⟨room, inside, aligned, written, fits, ends, afterHeader, beforeTrailer, linked⟩
    exact ⟨room, inside, Nat.mod_eq_zero_of_dvd aligned, written, fits, ends, afterHeader,
      beforeTrailer.trans_eq (ends ▸ rfl), (linkInRange_iff_linksBack fits).mpr linked⟩

theorem Closes.blocks {image : Image} {pageSize stop : Nat} {trailer : Trailer}
    (closes : Closes image pageSize stop trailer) :
    trailer.blocks image = readBlocks trailer.blockCount
      (image.slice trailer.blocksStart (stop - 40 - trailer.blocksStart)) trailer.blocksStart := by
  rw [← closes.ends]
  rfl

/-- A boundary validates exactly where a trailer closes a checkpoint before it whose blocks spell as many
changes as it counts. The changes are the only ones so spelled, the blocks that are read are these
changes, and a single block is read exactly from what some change is written as. -/
theorem validateCheckpoint_accepts_grammar (image : Image) (pageSize stop : Nat) :
    (∀ trailer, validateCheckpoint image stop pageSize = .ok trailer ↔
      Closes image pageSize stop trailer ∧ ∃ changes, changes.length = trailer.blockCount ∧
        Spelled image trailer.blocksStart (stop - 40) changes) ∧
    (∀ trailer changes, Closes image pageSize stop trailer → changes.length = trailer.blockCount →
      Spelled image trailer.blocksStart (stop - 40) changes →
        (∀ others, others.length = trailer.blockCount → Spelled image trailer.blocksStart (stop - 40) others →
          others = changes) ∧
        ∃ blocks, trailer.blocks image = .ok blocks ∧ Lists image trailer.blocksStart changes blocks) ∧
    ∀ offset limit block, Block.decode (image.slice offset (limit - offset)) offset = .ok block ↔
      block.offset = offset ∧ ∃ bytes, block.change.encode? = .ok bytes ∧
        offset + bytes.length ≤ min limit image.size ∧ image.slice offset bytes.length = bytes := by
  refine ⟨fun trailer => ?_, fun trailer changes closes count spelled => ⟨fun others also again => ?_, ?_⟩,
    fun offset limit block => Block.decode_slice_ok_iff⟩
  · rw [validateCheckpoint_ok_iff, readEndingAt_ok_iff_closes]
    refine and_congr_right fun closes => ?_
    rw [closes.blocks]
    constructor
    · rintro ⟨blocks, read⟩
      obtain ⟨changes, count, spelled, -⟩ := spelled_of_readBlocks closes.beforeTrailer read
      exact ⟨changes, count, spelled⟩
    · rintro ⟨changes, count, spelled⟩
      exact ⟨_, count ▸ spelled.readBlocks⟩
  · exact spelled.unique again (also.trans count.symm)
  · exact ⟨_, closes.blocks.trans (count ▸ spelled.readBlocks), spelled.lists⟩

/-- A document and its removal stand behind a page of zeros. The 435 bytes between them and the trailer
belong to no block. -/
theorem document_and_removal_accepted :
    ∃ image, Closes image 512 1024 ⟨0, 1024, 512, 2⟩ ∧
      Spelled image 512 984 [⟨[0x61], some [0x31]⟩, ⟨[0x61], none⟩] ∧
      validateCheckpoint image 1024 512 = .ok ⟨0, 1024, 512, 2⟩ ∧
      (∀ others, others.length = 2 → Spelled image 512 984 others →
        others = [⟨[0x61], some [0x31]⟩, ⟨[0x61], none⟩]) ∧
      (∃ blocks, (⟨0, 1024, 512, 2⟩ : Trailer).blocks image = .ok blocks ∧
        Lists image 512 [⟨[0x61], some [0x31]⟩, ⟨[0x61], none⟩] blocks) ∧
      Block.decode (image.slice 531 (984 - 531)) 531 = .ok ⟨531, ⟨[0x61], none⟩⟩ := by
  obtain ⟨image, whole, removal, both, closing⟩ : ∃ image : Image, image.size = 1024 ∧
      image.slice 531 18 = Change.encode ⟨[0x61], none⟩ ∧
      image.slice 512 37 = [⟨[0x61], some [0x31]⟩, ⟨[0x61], none⟩].flatMap Change.encode ∧
      image.slice 984 40 = (⟨0, 1024, 512, 2⟩ : Trailer).encode := by
    have document : (Change.encode ⟨[0x61], some [0x31]⟩).length = 19 := Change.length_encode _
    have removal : (Change.encode ⟨[0x61], none⟩).length = 18 := Change.length_encode _
    have trailer := Trailer.length_encode ⟨0, 1024, 512, 2⟩
    refine ⟨.ofBytes (Bytes.zeros 512 ++ Change.encode ⟨[0x61], some [0x31]⟩ ++ Change.encode ⟨[0x61], none⟩
      ++ Bytes.zeros 435 ++ (⟨0, 1024, 512, 2⟩ : Trailer).encode), ?_, ?_, ?_, ?_⟩
    · simp [document, removal, trailer, Trailer.size]
    · rw [Image.slice_eq, Image.bytes_ofBytes]
      exact Bytes.slice_middle (Bytes.zeros 512 ++ Change.encode ⟨[0x61], some [0x31]⟩)
        (Bytes.zeros 435 ++ (⟨0, 1024, 512, 2⟩ : Trailer).encode) (by simp) (by simp [document]) removal
    · rw [Image.slice_eq, Image.bytes_ofBytes]
      exact Bytes.slice_middle (Bytes.zeros 512) (Bytes.zeros 435 ++ (⟨0, 1024, 512, 2⟩ : Trailer).encode) (by simp)
        (by simp) (by simp [document, removal])
    · rw [Image.slice_eq, Image.bytes_ofBytes]
      exact Bytes.slice_middle _ [] (List.append_nil _).symm (by simp [document, removal]) trailer
  obtain ⟨accepts, spells, decodes⟩ := validateCheckpoint_accepts_grammar image 512 1024
  have fit : ∀ change ∈ [⟨[0x61], some [0x31]⟩, ⟨[0x61], none⟩], Change.Fits change := by decide
  have closes : Closes image 512 1024 ⟨0, 1024, 512, 2⟩ :=
    ⟨by decide, by omega, by decide, closing, ⟨by decide, by decide, by decide, by decide⟩, rfl, by decide, by decide,
      .inl rfl⟩
  have spelled : Spelled image 512 984 [⟨[0x61], some [0x31]⟩, ⟨[0x61], none⟩] :=
    ⟨_, Change.encodeAll?_ok_iff.mpr ⟨fit, rfl⟩, by decide, both⟩
  obtain ⟨unique, lists⟩ := spells _ _ closes rfl spelled
  refine ⟨image, closes, spelled, (accepts _).mpr ⟨closes, _, rfl, spelled⟩, unique, lists, ?_⟩
  refine (decodes 531 984 ⟨531, ⟨[0x61], none⟩⟩).mpr ⟨rfl, _, Change.encode?_ok_iff.mpr ⟨fit _ (by simp), rfl⟩, ?_, removal⟩
  rw [whole]
  decide

end CheckpointStore
