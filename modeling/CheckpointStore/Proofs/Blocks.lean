import CheckpointStore.Format.Block
import CheckpointStore.Image.Checkpoint
import CheckpointStore.Proofs.Reading

/-!
# Blocks written and read

Reading a block accepts exactly the bytes that some change is written as. Reading a run of blocks
accepts exactly the changes that were written one after the other, and finds each of them where it
lies.
-/

namespace CheckpointStore

/-- The change has a block whose length fits the length field. -/
def Change.Fits (change : Change) : Prop := change.encodedLength < lengthLimit

instance (change : Change) : Decidable change.Fits := inferInstanceAs (Decidable (_ < _))

theorem Change.kind_eq_tombstone_iff (change : Change) : change.kind = .tombstone ↔ change.value = none := by
  unfold kind
  cases change.value <;> simp

namespace BlockKind

theorem ofByte?_byte (kind : BlockKind) : ofByte? kind.byte = some kind := by cases kind <;> rfl

theorem byte_of_ofByte? {byte : UInt8} {kind : BlockKind} (h : ofByte? byte = some kind) : byte = kind.byte := by
  unfold ofByte? at h
  split at h
  · rename_i zero
    obtain rfl := Option.some.inj h
    exact zero
  · split at h
    · rename_i one
      obtain rfl := Option.some.inj h
      exact one
    · contradiction

end BlockKind

namespace Block

/-- The change that the bytes of a block spell, whether or not they are one. -/
def changeOf (body : Bytes) (kind : BlockKind) : Change :=
  ⟨body.slice 9 (LittleEndian.read body 5 4),
    if kind = .tombstone then none
    else some (body.slice (13 + LittleEndian.read body 5 4) (LittleEndian.read body (9 + LittleEndian.read body 5 4) 4))⟩

theorem decode_checks {window : Bytes} {offset length : Nat} {body : Bytes} {block : Block}
    (size : LittleEndian.read window 0 4 = length) (cut : window.take length = body) :
    decode window offset = .ok block ↔
      ¬ (window.take Change.overhead).length < Change.overhead ∧
        ¬ (length < Change.overhead ∨ body.length < length) ∧
        ¬ (Crc32.checksum (body.take (length - 4))).toNat ≠ LittleEndian.read body (length - 4) 4 ∧
        ∃ kind, BlockKind.ofByte? (body.getD 4 0) = some kind ∧
          ¬ 17 + LittleEndian.read body 5 4 > length ∧
          ¬ 17 + LittleEndian.read body 5 4 + LittleEndian.read body (9 + LittleEndian.read body 5 4) 4 ≠ length ∧
          ¬ (kind = .tombstone ∧ LittleEndian.read body (9 + LittleEndian.read body 5 4) 4 ≠ 0) ∧
          ⟨offset, changeOf body kind⟩ = block := by
  unfold decode changeOf
  simp only [size, cut, check_ok_iff]
  cases BlockKind.ofByte? (body.getD 4 0) with
  | none => simp
  | some kind => simp only [check_ok_iff, Except.ok.injEq, Option.some.injEq, exists_eq_left']

section Spelled

variable {body : Bytes} {kind : BlockKind}

structure Measured (body : Bytes) (kind : BlockKind) : Prop where
  total : 17 + LittleEndian.read body 5 4 + LittleEndian.read body (9 + LittleEndian.read body 5 4) 4 = body.length
  bare : kind = .tombstone → LittleEndian.read body (9 + LittleEndian.read body 5 4) 4 = 0

theorem kind_changeOf : (changeOf body kind).kind = kind := by
  cases kind <;> simp [changeOf, Change.kind]

theorem length_key_changeOf (measured : Measured body kind) :
    (changeOf body kind).key.length = LittleEndian.read body 5 4 := by
  have total := measured.total
  simp only [changeOf, Bytes.length_slice]
  omega

theorem valueBytes_changeOf (measured : Measured body kind) :
    (changeOf body kind).valueBytes
      = body.slice (13 + LittleEndian.read body 5 4) (LittleEndian.read body (9 + LittleEndian.read body 5 4) 4) := by
  cases kind with
  | document => simp [changeOf, Change.valueBytes]
  | tombstone => simp [changeOf, Change.valueBytes, measured.bare rfl]

theorem length_valueBytes_changeOf (measured : Measured body kind) :
    (changeOf body kind).valueBytes.length = LittleEndian.read body (9 + LittleEndian.read body 5 4) 4 := by
  have total := measured.total
  rw [valueBytes_changeOf measured, Bytes.length_slice]
  omega

theorem encodedLength_changeOf (measured : Measured body kind) : (changeOf body kind).encodedLength = body.length := by
  rw [Change.encodedLength, length_key_changeOf measured, length_valueBytes_changeOf measured]
  exact measured.total

theorem fields_changeOf (measured : Measured body kind) (sized : LittleEndian.read body 0 4 = body.length)
    (marked : body.getD 4 0 = kind.byte) : (changeOf body kind).fields = body.take (body.length - 4) := by
  have total := measured.total
  have size := LittleEndian.encode_read body 0 4 (by omega)
  have mark : body.slice 4 1 = [body.getD 4 0] := Bytes.slice_one body (by omega)
  have key := LittleEndian.encode_read body 5 4 (by omega)
  have value := LittleEndian.encode_read body (9 + LittleEndian.read body 5 4) 4 (by omega)
  rw [sized, Bytes.slice_from_zero] at size
  rw [marked] at mark
  have keyBytes : (changeOf body kind).key = body.slice 9 (LittleEndian.read body 5 4) := rfl
  rw [Change.fields, encodedLength_changeOf measured, kind_changeOf, length_key_changeOf measured,
    length_valueBytes_changeOf measured, valueBytes_changeOf measured, keyBytes, size, key, value, ← mark,
    Bytes.take_append_slice, Bytes.take_append_slice, Bytes.take_append_slice,
    show 13 + LittleEndian.read body 5 4 = 9 + LittleEndian.read body 5 4 + 4 by omega,
    Bytes.take_append_slice, Bytes.take_append_slice]
  congr 1
  omega

theorem encode_changeOf (measured : Measured body kind) (sized : LittleEndian.read body 0 4 = body.length)
    (marked : body.getD 4 0 = kind.byte)
    (sealed : (Crc32.checksum (body.take (body.length - 4))).toNat = LittleEndian.read body (body.length - 4) 4) :
    (changeOf body kind).encode = body := by
  have total := measured.total
  have check := LittleEndian.encode_read body (body.length - 4) 4 (by omega)
  rw [Change.encode, fields_changeOf measured sized marked, sealed, check, Bytes.take_append_slice,
    List.take_of_length_le (by omega)]

end Spelled

section Written

variable {change : Change}

theorem read_length_encode (fits : change.Fits) (rest : Bytes) :
    LittleEndian.read (change.encode ++ rest) 0 4 = change.encodedLength :=
  LittleEndian.read_middle []
    ([change.kind.byte] ++ LittleEndian.encode 4 change.key.length ++ change.key
      ++ LittleEndian.encode 4 change.valueBytes.length ++ change.valueBytes
      ++ LittleEndian.encode 4 (Crc32.checksum change.fields).toNat ++ rest)
    (by simp [Change.encode, Change.fields]) rfl fits

theorem getD_kind_encode : change.encode.getD 4 0 = change.kind.byte :=
  Bytes.getD_of_slice (Bytes.slice_middle (LittleEndian.encode 4 change.encodedLength)
    (LittleEndian.encode 4 change.key.length ++ change.key
      ++ LittleEndian.encode 4 change.valueBytes.length ++ change.valueBytes
      ++ LittleEndian.encode 4 (Crc32.checksum change.fields).toNat)
    (by simp [Change.encode, Change.fields]) (by simp) rfl)

theorem read_keyLength_encode (fits : change.Fits) : LittleEndian.read change.encode 5 4 = change.key.length :=
  LittleEndian.read_middle (LittleEndian.encode 4 change.encodedLength ++ [change.kind.byte])
    (change.key ++ LittleEndian.encode 4 change.valueBytes.length ++ change.valueBytes
      ++ LittleEndian.encode 4 (Crc32.checksum change.fields).toNat)
    (by simp [Change.encode, Change.fields]) (by simp)
    (by unfold Change.Fits Change.encodedLength Change.lengthLimit at fits; omega)

theorem slice_key_encode : change.encode.slice 9 change.key.length = change.key :=
  Bytes.slice_middle
    (LittleEndian.encode 4 change.encodedLength ++ [change.kind.byte]
      ++ LittleEndian.encode 4 change.key.length)
    (LittleEndian.encode 4 change.valueBytes.length ++ change.valueBytes
      ++ LittleEndian.encode 4 (Crc32.checksum change.fields).toNat)
    (by simp [Change.encode, Change.fields]) (by simp) rfl

theorem read_valueLength_encode (fits : change.Fits) :
    LittleEndian.read change.encode (9 + change.key.length) 4 = change.valueBytes.length :=
  LittleEndian.read_middle
    (LittleEndian.encode 4 change.encodedLength ++ [change.kind.byte]
      ++ LittleEndian.encode 4 change.key.length ++ change.key)
    (change.valueBytes ++ LittleEndian.encode 4 (Crc32.checksum change.fields).toNat)
    (by simp [Change.encode, Change.fields]) (by simp; omega)
    (by unfold Change.Fits Change.encodedLength Change.lengthLimit at fits; omega)

theorem slice_value_encode :
    change.encode.slice (13 + change.key.length) change.valueBytes.length = change.valueBytes :=
  Bytes.slice_middle
    (LittleEndian.encode 4 change.encodedLength ++ [change.kind.byte]
      ++ LittleEndian.encode 4 change.key.length ++ change.key ++ LittleEndian.encode 4 change.valueBytes.length)
    (LittleEndian.encode 4 (Crc32.checksum change.fields).toNat)
    (by simp [Change.encode, Change.fields]) (by simp; omega) rfl

theorem slice_value_behind (image : Image) (key : Bytes) {value middle : Bytes} (front back : Bytes)
    (split : value = front ++ middle ++ back) :
    (image ++ Image.ofBytes (Change.encode ⟨key, some value⟩)).slice
      (image.size + (13 + key.length + front.length)) middle.length = middle := by
  have written : (Change.encode ⟨key, some value⟩).slice (13 + key.length) value.length = value := slice_value_encode
  have inner : ((Change.encode ⟨key, some value⟩).slice (13 + key.length) value.length).slice front.length middle.length
      = (Change.encode ⟨key, some value⟩).slice (13 + key.length + front.length) middle.length :=
    Bytes.slice_slice (by rw [split]; simp)
  rw [Image.slice_append_right, Image.slice_eq, Image.bytes_ofBytes, ← inner, written]
  exact Bytes.slice_middle front back split rfl rfl

theorem changeOf_encode (fits : change.Fits) : changeOf change.encode change.kind = change := by
  have removed := change.kind_eq_tombstone_iff
  unfold changeOf
  rw [read_keyLength_encode fits, read_valueLength_encode fits, slice_key_encode, slice_value_encode]
  obtain ⟨key, value⟩ := change
  cases value with
  | none => simp [removed]
  | some value => simp [removed, Change.valueBytes]

end Written

theorem written_of_decode {window : Bytes} {offset : Nat} {block : Block} (read : decode window offset = .ok block) :
    block.offset = offset ∧ block.change.Fits ∧ ∃ rest, window = block.change.encode ++ rest := by
  obtain ⟨long, inside, sealed, kind, found, _, total, bare, rfl⟩ := (decode_checks rfl rfl).mp read
  have small := LittleEndian.read_lt window 0 4
  generalize sized : LittleEndian.read window 0 4 = length at *
  generalize cut : window.take length = body at *
  have full : body.length = length := by
    have short := congrArg List.length cut
    rw [List.length_take] at short
    omega
  subst full
  have wide : 17 ≤ body.length := Nat.le_of_not_lt fun less => inside (.inl less)
  have same : LittleEndian.read body 0 4 = LittleEndian.read window 0 4 := by
    unfold LittleEndian.read
    rw [← cut, Bytes.slice_from_zero, Bytes.slice_from_zero, List.take_take, Nat.min_eq_left (by omega)]
  have measured : Measured body kind := by
    refine ⟨by omega, ?_⟩
    intro tomb
    exact not_not.mp fun some => bare ⟨tomb, some⟩
  have whole := encode_changeOf measured (same.trans sized) (BlockKind.byte_of_ofByte? found) (not_not.mp sealed)
  refine ⟨rfl, ?_, window.drop body.length, ?_⟩
  · rw [Change.Fits, encodedLength_changeOf measured]
    exact small
  · rw [whole]
    conv_lhs => rw [← List.take_append_drop body.length window, cut]

theorem decode_encode {change : Change} (fits : change.Fits) (rest : Bytes) (offset : Nat) :
    decode (change.encode ++ rest) offset = .ok ⟨offset, change⟩ := by
  have wide : 17 ≤ change.encodedLength := by
    unfold Change.encodedLength Change.overhead
    omega
  have cut : (change.encode ++ rest).take change.encodedLength = change.encode := by
    rw [← Change.length_encode, List.take_left]
  have size := Change.length_fields change
  have under : change.encode.take (change.encodedLength - 4) = change.fields := by
    rw [Change.encode, List.take_left' (by omega)]
  have sealed : LittleEndian.read change.encode (change.encodedLength - 4) 4 = (Crc32.checksum change.fields).toNat :=
    LittleEndian.read_middle change.fields [] (by simp [Change.encode]) (by omega) (UInt32.toNat_lt _)
  have total : change.encodedLength = 17 + change.key.length + change.valueBytes.length := rfl
  refine (decode_checks (read_length_encode fits rest) cut).mpr ⟨?_, ?_, ?_, change.kind, ?_, ?_, ?_, ?_, ?_⟩
  · simp only [List.length_take, List.length_append, Change.length_encode, Change.overhead]
    omega
  · simp only [Change.length_encode, Change.overhead]
    omega
  · rw [under, sealed]
    exact not_not.mpr rfl
  · rw [getD_kind_encode, BlockKind.ofByte?_byte]
  · rw [read_keyLength_encode fits]
    omega
  · rw [read_keyLength_encode fits, read_valueLength_encode fits]
    omega
  · rw [read_keyLength_encode fits, read_valueLength_encode fits]
    rintro ⟨tomb, some⟩
    rw [Change.valueBytes, change.kind_eq_tombstone_iff.mp tomb] at some
    exact some rfl
  · rw [changeOf_encode fits]

/-- Reading a block accepts exactly the bytes that a change is written as. -/
theorem decode_ok_iff {window : Bytes} {offset : Nat} {block : Block} :
    decode window offset = .ok block ↔
      block.offset = offset ∧ block.change.Fits ∧ ∃ rest, window = block.change.encode ++ rest := by
  constructor
  · exact written_of_decode
  · rintro ⟨rfl, fits, rest, rfl⟩
    exact decode_encode fits rest block.offset

/-! ### Runs of blocks -/

/-- The blocks that changes become when they are written one after the other from `offset`. -/
def place : Nat → List Change → List Block
  | _, [] => []
  | offset, change :: rest => ⟨offset, change⟩ :: place (offset + change.encodedLength) rest

theorem map_change_place (offset : Nat) (changes : List Change) : (place offset changes).map Block.change = changes := by
  induction changes generalizing offset with
  | nil => rfl
  | cons change rest ih => simp [place, ih]

theorem value_placed {window rest : Bytes} {offset : Nat} {changes : List Change} {block : Block}
    (split : window = changes.flatMap Change.encode ++ rest) (mem : block ∈ place offset changes) :
    ∃ front, block.valueOffset = offset + front ∧
      front + block.change.valueBytes.length ≤ (changes.flatMap Change.encode).length ∧
      window.slice front block.change.valueBytes.length = block.change.valueBytes := by
  induction changes generalizing offset window with
  | nil => simp [place] at mem
  | cons change changes ih =>
    rw [List.flatMap_cons, List.append_assoc] at split
    rw [List.flatMap_cons, List.length_append, Change.length_encode]
    rcases List.mem_cons.mp mem with rfl | mem
    · have size : change.encodedLength = 17 + change.key.length + change.valueBytes.length := rfl
      refine ⟨13 + change.key.length, ?_⟩
      dsimp only [valueOffset]
      refine ⟨by omega, by omega, ?_⟩
      rw [split, Bytes.slice_append_of_le, slice_value_encode]
      rw [Change.length_encode]
      omega
    · obtain ⟨front, place, inside, found⟩ := ih rfl mem
      refine ⟨change.encodedLength + front, by omega, by omega, ?_⟩
      rw [split, ← Change.length_encode, Bytes.slice_append_right, found]

end Block

namespace Change

theorem encodeAll?_ok_iff {changes : List Change} {bytes : Bytes} :
    encodeAll? changes = .ok bytes ↔ (∀ change ∈ changes, change.Fits) ∧ bytes = changes.flatMap encode := by
  induction changes generalizing bytes with
  | nil => simp [encodeAll?, eq_comm]
  | cons change rest ih =>
    rw [encodeAll?, encode?]
    by_cases fits : change.Fits
    · rw [if_neg (Nat.not_le_of_lt fits)]
      cases later : encodeAll? rest with
      | error error =>
        simp only [reduceCtorEq, false_iff]
        rintro ⟨all, -⟩
        have wrote := ih.mpr ⟨fun other mem => all other (List.mem_cons_of_mem _ mem), rfl⟩
        rw [later] at wrote
        contradiction
      | ok blocks =>
        obtain ⟨all, rfl⟩ := ih.mp later
        simp only [Except.ok.injEq, List.flatMap_cons]
        constructor
        · rintro rfl
          refine ⟨?_, rfl⟩
          intro other mem
          rcases List.mem_cons.mp mem with rfl | mem
          · exact fits
          · exact all other mem
        · rintro ⟨-, rfl⟩
          rfl
    · rw [if_pos (Nat.le_of_not_lt fits)]
      simp only [reduceCtorEq, false_iff]
      rintro ⟨all, -⟩
      exact fits (all change List.mem_cons_self)

end Change

theorem readBlocks_succ_ok_iff {count offset : Nat} {window : Bytes} {blocks : List Block} :
    readBlocks (count + 1) window offset = .ok blocks ↔
      ∃ block rest, Block.decode window offset = .ok block ∧
        readBlocks count (window.drop block.length) block.stop = .ok rest ∧ blocks = block :: rest := by
  rw [readBlocks]
  constructor
  · intro h
    split at h
    · contradiction
    rename_i block first
    split at h
    · contradiction
    rename_i rest later
    exact ⟨block, rest, first, later, (Except.ok.inj h).symm⟩
  · rintro ⟨block, rest, first, later, rfl⟩
    simp only [first, later]

theorem bounds_of_readBlocks {count offset : Nat} {window : Bytes} {blocks : List Block}
    (read : readBlocks count window offset = .ok blocks) :
    ∀ block ∈ blocks, offset ≤ block.offset ∧ block.stop ≤ offset + window.length := by
  induction count generalizing window offset blocks with
  | zero =>
    obtain rfl := Except.ok.inj read
    simp
  | succ count ih =>
    obtain ⟨first, rest, decoded, later, rfl⟩ := readBlocks_succ_ok_iff.mp read
    obtain ⟨rfl, -, behind, rfl⟩ := Block.decode_ok_iff.mp decoded
    have size : (first.change.encode ++ behind).length = first.length + behind.length := by
      rw [List.length_append, Change.length_encode]
      rfl
    have stop : first.stop = first.offset + first.length := rfl
    intro block mem
    rcases List.mem_cons.mp mem with rfl | mem
    · omega
    · have inner := ih later block mem
      rw [List.length_drop] at inner
      omega

/-- Reading a run of blocks accepts exactly the changes that were written one after the other. -/
theorem readBlocks_ok_iff {count offset : Nat} {window : Bytes} {blocks : List Block} :
    readBlocks count window offset = .ok blocks ↔
      ∃ changes rest, changes.length = count ∧ (∀ change ∈ changes, change.Fits) ∧
        window = changes.flatMap Change.encode ++ rest ∧ blocks = Block.place offset changes := by
  induction count generalizing window offset blocks with
  | zero =>
    simp only [readBlocks, Except.ok.injEq, List.length_eq_zero_iff]
    constructor
    · rintro rfl
      exact ⟨[], window, rfl, by simp, rfl, rfl⟩
    · rintro ⟨_, _, rfl, -, -, rfl⟩
      rfl
  | succ count ih =>
    rw [readBlocks_succ_ok_iff]
    constructor
    · rintro ⟨block, others, first, later, rfl⟩
      obtain ⟨rfl, fits, behind, rfl⟩ := Block.decode_ok_iff.mp first
      rw [Block.length, ← Change.length_encode, List.drop_left] at later
      obtain ⟨changes, rest, rfl, all, rfl, rfl⟩ := ih.mp later
      refine ⟨block.change :: changes, rest, rfl, ?_, by simp, rfl⟩
      intro change mem
      rcases List.mem_cons.mp mem with rfl | mem
      · exact fits
      · exact all change mem
    · rintro ⟨changes, rest, size, all, rfl, rfl⟩
      cases changes with
      | nil => simp at size
      | cons change changes =>
        rw [List.flatMap_cons, List.append_assoc]
        refine ⟨⟨offset, change⟩, Block.place (offset + change.encodedLength) changes,
          Block.decode_encode (all change List.mem_cons_self) _ _, ?_, rfl⟩
        exact ih.mpr ⟨changes, rest, by simpa using size, fun other mem => all other (List.mem_cons_of_mem _ mem),
          List.drop_left' (Change.length_encode _), rfl⟩

namespace Trailer

/-- The blocks of a trailer are the changes written from where it says up to the trailer itself. -/
theorem blocks_ok_iff {trailer : Trailer} {image : Image} {blocks : List Block} :
    trailer.blocks image = .ok blocks ↔
      ∃ changes rest, changes.length = trailer.blockCount ∧ (∀ change ∈ changes, change.Fits) ∧
        image.slice trailer.blocksStart (trailer.offset - trailer.blocksStart)
          = changes.flatMap Change.encode ++ rest ∧
        blocks = Block.place trailer.blocksStart changes := readBlocks_ok_iff

/-- Every value that a trailer's blocks hold lies in the image where its block says, before the
trailer. -/
theorem value_of_blocks {trailer : Trailer} {image : Image} {blocks : List Block} {block : Block}
    (read : trailer.blocks image = .ok blocks) (mem : block ∈ blocks) :
    block.valueOffset + block.change.valueBytes.length ≤ max trailer.offset trailer.blocksStart ∧
      image.slice block.valueOffset block.change.valueBytes.length = block.change.valueBytes := by
  obtain ⟨changes, rest, -, -, window, rfl⟩ := blocks_ok_iff.mp read
  obtain ⟨front, place, inside, found⟩ := Block.value_placed window mem
  have room := congrArg List.length window
  rw [Image.length_slice, List.length_append] at room
  rw [Image.slice_slice _ (by omega)] at found
  rw [place]
  exact ⟨by omega, found⟩

theorem window_of_blocks {trailer : Trailer} {image : Image} {blocks : List Block} (parsed : trailer.blocks image = .ok blocks) :
    ∀ block ∈ blocks, trailer.blocksStart ≤ block.offset ∧
      block.stop ≤ trailer.blocksStart + (trailer.offset - trailer.blocksStart) := by
  intro block mem
  obtain ⟨low, high⟩ := bounds_of_readBlocks parsed block mem
  rw [Image.length_slice] at high
  omega

theorem blocks_agree {trailer : Trailer} {a b : Image} {reach : Nat} (h : Image.Agree reach a b)
    (before : trailer.blocksStart ≤ trailer.offset) (le : trailer.offset ≤ reach) :
    trailer.blocks a = trailer.blocks b := by
  unfold blocks
  rw [h.slice (by omega)]

end Trailer
end CheckpointStore
