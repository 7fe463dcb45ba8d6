import CheckpointStore.Proofs.Scans

/-!
# Opening with every access watched

Opening takes lengths, offsets and counts from the file. Here it is written once more on the whole
image with places counted from its start, and it halts as soon as it reaches past the end of what it
cuts, subtracts more than there is, divides by zero, or leaves the numbers of eight bytes. It never
does. Before the blocks of a checkpoint are read it asks for room for as many as the trailer counts,
whatever the file has, and halts if that is refused. Otherwise it comes to what opening gives.
-/

namespace CheckpointStore

/-- Why a computation comes to neither a value nor an error. -/
inductive Halt where
  /-- An access, a subtraction, a sum or a division out of range -/
  | outOfRange
  /-- No room for so many blocks -/
  | noRoom (count : Nat)
  deriving DecidableEq, Repr

/-- A computation that halts where an access or a subtraction is out of range, or room is refused. -/
abbrev Guarded (ε α : Type) := ExceptT ε (Except Halt) α

namespace Guarded

variable {ε α β : Type}

def halted (halt : Halt) : Guarded ε α := ExceptT.mk (.error halt)

def fault : Guarded ε α := halted .outOfRange

/-- A computation that was not halted. -/
def settled (result : Except ε α) : Guarded ε α := ExceptT.mk (.ok result)

/-- Asks for room for so many blocks, of an allocator that grants some counts and refuses others. -/
def reserve (grants : Nat → Bool) (count : Nat) : Guarded ε Unit :=
  if grants count then pure () else halted (.noRoom count)

/-- The bytes from `start` up to `stop`. -/
def cut (bytes : Bytes) (start stop : Nat) : Guarded ε Bytes :=
  if start ≤ stop ∧ stop ≤ bytes.length then pure (bytes.slice start (stop - start)) else fault

def byteAt (bytes : Bytes) (index : Nat) : Guarded ε UInt8 :=
  if index < bytes.length then pure (bytes.getD index 0) else fault

def minus (a b : Nat) : Guarded ε Nat := if b ≤ a then pure (a - b) else fault

/-- The sum, as far as it is a number of eight bytes. -/
def plus (a b : Nat) : Guarded ε Nat := if a + b < 256 ^ 8 then pure (a + b) else fault

def remainder (a b : Nat) : Guarded ε Nat := if b = 0 then fault else pure (a % b)

def word (bytes : Bytes) (offset width : Nat) : Guarded ε Nat := do
  return LittleEndian.decode (← cut bytes offset (← plus offset width))

/-! ### The open path -/

def decodeHeader (image : Bytes) : Guarded StorageError Header := do
  if image.length < Header.size then throw (.header (.tooShort image.length))
  else if (← cut image 0 8) ≠ Header.magic then throw (.header .magic)
  else
    let stored ← word image 16 4
    let covered ← cut image 0 16
    if (Crc32.checksum covered).toNat ≠ stored then throw (.header (.checksum (UInt32.ofNat stored)))
    else
      let version ← word image 8 4
      if version ≠ Header.currentVersion then throw (.header (.version version))
      else
        let pageSize ← word image 12 4
        if isPageSize pageSize = false then throw (.header (.pageSize pageSize))
        else if image.length < pageSize then throw (.header (.shorterThanPage image.length pageSize))
        else return ⟨version, pageSize⟩

/-- Whether the link of a trailer with these fields leads to where a checkpoint can end. -/
def linkInRange (trailer : Trailer) (pageSize : Nat) : Guarded StorageError Bool := do
  if trailer.previousTrailer = 0 then return true
  else
    let previousEnd ← plus trailer.previousTrailer Trailer.size
    let beside ← remainder previousEnd pageSize
    return pageSize ≤ trailer.previousTrailer && previousEnd ≤ trailer.blocksStart && beside == 0

def readEndingAt (image : Bytes) (stop pageSize : Nat) : Guarded StorageError Trailer := do
  let least ← plus pageSize Trailer.size
  if stop < least ∨ image.length < stop then throw (.checkpoint stop .trailerOutside)
  else if (← remainder stop pageSize) ≠ 0 then throw (.checkpoint stop .trailerUnaligned)
  else
    let start ← minus stop Trailer.size
    let raw ← cut image start stop
    if (← cut raw 0 8) ≠ Trailer.magic then throw (.checkpoint start .trailerMagic)
    else
      let stored ← word raw 36 4
      let covered ← cut raw 0 36
      if (Crc32.checksum covered).toNat ≠ stored then
        throw (.checkpoint start (.trailerChecksum (UInt32.ofNat stored)))
      else
        let trailer : Trailer := ⟨← word raw 8 8, ← word raw 16 8, ← word raw 24 8, ← word raw 32 4⟩
        if trailer.checkpointSize ≠ stop then throw (.checkpoint start (.trailerSize trailer.checkpointSize stop))
        else
          let offset ← minus trailer.checkpointSize Trailer.size
          if trailer.blocksStart < pageSize ∨ offset < trailer.blocksStart then
            throw (.checkpoint start (.blocksStart trailer.blocksStart))
          else if (← linkInRange trailer pageSize) = false then
            throw (.checkpoint start (.previousTrailer trailer.previousTrailer))
          else return trailer

/-- The block at `offset`, which ends at or before `limit`. -/
def block (image : Bytes) (offset limit : Nat) : Guarded StorageError Block := do
  let least ← plus offset Change.overhead
  if min limit image.length < least then throw (.checkpoint offset .blockCutOff)
  else
    let length ← word image offset 4
    let stop ← plus offset length
    if length < Change.overhead ∨ min limit image.length < stop then throw (.checkpoint offset (.blockLength length))
    else
      let sealed ← minus stop 4
      let stored ← word image sealed 4
      let covered ← cut image offset sealed
      if (Crc32.checksum covered).toNat ≠ stored then
        throw (.checkpoint offset (.blockChecksum (UInt32.ofNat stored)))
      else
        match BlockKind.ofByte? (← byteAt image (← plus offset 4)) with
        | none => throw (.checkpoint offset .blockKind)
        | some kind =>
          let keyLength ← word image (← plus offset 5) 4
          let keyStart ← plus offset 9
          let keyStop ← plus keyStart keyLength
          if stop < (← plus keyStop 8) then throw (.checkpoint offset .keyLength)
          else
            let valueLength ← word image keyStop 4
            let valueStart ← plus keyStop 4
            let valueStop ← plus valueStart valueLength
            if (← plus valueStop 4) ≠ stop then throw (.checkpoint offset .valueLength)
            else if kind = .tombstone ∧ valueLength ≠ 0 then throw (.checkpoint offset .tombstoneValue)
            else
              let key ← cut image keyStart keyStop
              let value ← cut image valueStart valueStop
              return ⟨offset, key, if kind = .tombstone then none else some value⟩

def blockRun (image : Bytes) (limit : Nat) : Nat → Nat → Guarded StorageError (List Block)
  | 0, _ => return []
  | count + 1, offset => do
    let first ← block image offset limit
    let rest ← blockRun image limit count (← plus offset first.length)
    return first :: rest

/-- The blocks of a checkpoint. Room for them is asked for before the first is read. -/
def blocks (grants : Nat → Bool) (image : Bytes) (trailer : Trailer) : Guarded StorageError (List Block) := do
  let limit ← minus trailer.checkpointSize Trailer.size
  reserve grants trailer.blockCount
  blockRun image limit trailer.blockCount trailer.blocksStart

def validate (grants : Nat → Bool) (image : Bytes) (stop pageSize : Nat) : Guarded StorageError Trailer := do
  let trailer ← readEndingAt image stop pageSize
  let _ ← blocks grants image trailer
  return trailer

def previousCheckpoint (trailer : Trailer) : Guarded StorageError Nat :=
  if trailer.previousTrailer = 0 then return 0 else plus trailer.previousTrailer Trailer.size

def chain (image : Bytes) (pageSize stop : Nat) : Guarded StorageError (List Trailer) :=
  if stop = 0 then return []
  else do
    let trailer ← readEndingAt image stop pageSize
    let previous ← previousCheckpoint trailer
    if _ : previous < stop then return trailer :: (← chain image pageSize previous)
    else throw (.checkpoint (← minus trailer.checkpointSize Trailer.size) .chainOrder)
termination_by stop

/-- The scan down from `stop`. A step that does not go down is a fault as well. -/
def scan (grants : Nat → Bool) (image : Bytes) (pageSize stop : Nat) (failure : Option DamageReason) :
    Guarded StorageError (Option (Trailer × Option DamageReason)) := do
  if stop < (← plus pageSize Trailer.size) then return none
  else
    match (validate grants image stop pageSize).run with
    | .error halt => halted halt
    | .ok (.ok trailer) => return some (trailer, failure)
    | .ok (.error error) =>
      let next ← minus stop pageSize
      if _ : next < stop then scan grants image pageSize next (failure <|> some (.refused error)) else fault
termination_by stop

def load (grants : Nat → Bool) (image : Bytes) : Guarded StorageError Layout := do
  let header ← decodeHeader image
  if image.length = header.pageSize then return ⟨header, none, image.length, none⟩
  else
    let stop ← minus image.length (← remainder image.length header.pageSize)
    let trailing ← minus image.length stop
    let failure := if stop = image.length then none else some (DamageReason.trailingBytes trailing)
    if stop = header.pageSize then
      return ⟨header, none, image.length, failure.map fun reason => ⟨header.pageSize, image.length, reason⟩⟩
    else
      match ← scan grants image header.pageSize stop failure with
      | some (trailer, failure) =>
        return ⟨header, some trailer, image.length,
          failure.map fun reason => ⟨trailer.checkpointSize, image.length, reason⟩⟩
      | none => throw (.noValidCheckpoint image.length)

def applyAll (grants : Nat → Bool) (image : Bytes) : List Trailer → LiveIndex → Guarded StorageError LiveIndex
  | [], index => return index
  | trailer :: rest, index => do
    let found ← blocks grants image trailer
    applyAll grants image rest
      ⟨found.foldl (LiveIndex.applyBlock trailer.checkpointSize) index.entries, trailer.checkpointSize⟩

def build (grants : Nat → Bool) (image : Bytes) (pageSize stop : Nat) : Guarded StorageError LiveIndex := do
  let trailers ← chain image pageSize stop
  applyAll grants image trailers.reverse LiveIndex.empty

def discardedBytes (damage : TailDamage) : Guarded StorageError Nat := minus damage.fileSize damage.validEnd

def ofImage (grants : Nat → Bool) (image : Image) (mode : OpenMode) (settings : Settings) (location : String) :
    Guarded StorageError (Handle × List Event) := do
  let layout ← load grants image.bytes
  let stop := (layout.current.map Trailer.checkpointSize).getD 0
  let trailers ← chain image.bytes layout.header.pageSize stop
  let index ← build grants image.bytes layout.header.pageSize stop
  let discarded ← layout.damage.mapM discardedBytes
  let recovery := (discarded.map Recovery.damaged).getD .clean
  let damage := layout.damage.toList.map fun damage =>
    Event.tailDamageRecovered location stop damage.discardedBytes damage.reason.text
  return ({ image, header := layout.header, current := layout.current,
            checkpoints := (trailers.map Trailer.checkpointSize).reverse, index,
            staged := KeyMap.empty, recovery, access := Handle.accessOf mode, settings, location,
            poisoned := false },
    damage ++ [.openComplete location stop index.size recovery.isDamaged])

/-! ### Accesses in range -/

/-- The part is found in the bytes from `offset` on. -/
structure StandsAt (part bytes : Bytes) (offset : Nat) : Prop where
  inside : offset + part.length ≤ bytes.length
  same : bytes.slice offset part.length = part

section Steps

variable {bytes : Bytes}

theorem settled_ok (value : α) : (settled (.ok value) : Guarded ε α) = pure value := rfl

/-- Where the same check is made, what remains is what comes of it when it is passed. -/
theorem check {failed watched : Prop} [Decidable failed] [Decidable watched] {error : ε} {guarded : Guarded ε α}
    {rest : Except ε α} (same : watched ↔ failed) (passed : ¬ failed → guarded = settled rest) :
    (if watched then throw error else guarded) = settled (if failed then .error error else rest) := by
  by_cases here : failed
  · rw [if_pos (same.mpr here), if_pos here]
    rfl
  · rw [if_neg (mt same.mp here), if_neg here]
    exact passed here

theorem cut_eq {start stop : Nat} (ordered : start ≤ stop) (inside : stop ≤ bytes.length) :
    (cut bytes start stop : Guarded ε Bytes) = pure (bytes.slice start (stop - start)) := if_pos ⟨ordered, inside⟩

theorem byteAt_eq {index : Nat} (inside : index < bytes.length) :
    (byteAt bytes index : Guarded ε UInt8) = pure (bytes.getD index 0) := if_pos inside

theorem minus_eq {a b : Nat} (enough : b ≤ a) : (minus a b : Guarded ε Nat) = pure (a - b) := if_pos enough

theorem plus_eq {a b : Nat} (small : a + b < 256 ^ 8) : (plus a b : Guarded ε Nat) = pure (a + b) := if_pos small

theorem remainder_eq {a b : Nat} (positive : 0 < b) : (remainder a b : Guarded ε Nat) = pure (a % b) :=
  if_neg (Nat.ne_of_gt positive)

theorem word_eq {offset width : Nat} (inside : offset + width ≤ bytes.length) (small : bytes.length < 256 ^ 8) :
    (word bytes offset width : Guarded ε Nat) = pure (LittleEndian.read bytes offset width) := by
  unfold word
  rw [plus_eq (by omega), pure_bind, cut_eq (by omega) inside, pure_bind, Nat.add_sub_cancel_left]
  rfl

section Parts

variable {part : Bytes} {offset : Nat} (stands : StandsAt part bytes offset)

include stands

theorem StandsAt.slice_eq {start count : Nat} (le : start + count ≤ part.length) :
    bytes.slice (offset + start) count = part.slice start count := by
  rw [← Bytes.slice_slice le, stands.same]

theorem StandsAt.take (length : Nat) : StandsAt (part.take length) bytes offset := by
  have le : (part.take length).length ≤ part.length := List.length_take_le' _ _
  refine ⟨Nat.le_trans (Nat.add_le_add_left le offset) stands.inside, ?_⟩
  have front : bytes.slice (offset + 0) (part.take length).length = part.slice 0 (part.take length).length :=
    stands.slice_eq (by omega)
  rw [Nat.add_zero] at front
  rw [front, Bytes.slice_from_zero, List.length_take]
  exact List.take_eq_take_min.symm

theorem StandsAt.cut_eq (start count : Nat) {here there : Nat} (begins : here = offset + start) (ends : there = here + count)
    (le : start + count ≤ part.length) : (cut bytes here there : Guarded ε Bytes) = pure (part.slice start count) := by
  have inside := stands.inside
  rw [Guarded.cut_eq (by omega) (by omega), ends, Nat.add_sub_cancel_left, begins, stands.slice_eq le]

theorem StandsAt.word_eq (start : Nat) {here width : Nat} (begins : here = offset + start) (le : start + width ≤ part.length)
    (small : bytes.length < 256 ^ 8) : (word bytes here width : Guarded ε Nat) = pure (LittleEndian.read part start width) := by
  have inside := stands.inside
  rw [Guarded.word_eq (by omega) small, LittleEndian.read, LittleEndian.read, begins, stands.slice_eq le]

theorem StandsAt.byteAt_eq (index : Nat) {here : Nat} (begins : here = offset + index) (less : index < part.length) :
    (byteAt bytes here : Guarded ε UInt8) = pure (part.getD index 0) := by
  have inside := stands.inside
  have marked : bytes.getD here 0 = part.getD index 0 := by
    refine Bytes.getD_of_slice ?_
    rw [begins, stands.slice_eq less, Bytes.slice_one part less]
  rw [Guarded.byteAt_eq (by omega), marked]

end Parts

end Steps

/-- No trailer that ends at a page boundary past the header names one at the very end of the numbers of
eight bytes. -/
def Tame (image : Image) : Prop :=
  ∀ (header : Header) (trailer : Trailer), Header.decode image = .ok header → trailer.Fits →
    header.pageSize < trailer.checkpointSize → header.pageSize ∣ trailer.checkpointSize →
    image.slice trailer.offset Trailer.size = trailer.encode → trailer.previousTrailer ≤ 256 ^ 8 - 41

section Open

variable {image : Image} {header : Header} {pageSize stop : Nat} {trailer : Trailer}

theorem pageSize_bounds (decoded : Header.decode image = .ok header) : 512 ≤ header.pageSize ∧ header.pageSize ≤ 65536 :=
  pageSize_pos (Header.decode_ok_iff.mp decoded).2.1

/-- A sum that starts over is not reached in a tame image. -/
theorem Tame.link_lt (tame : Tame image) (decoded : Header.decode image = .ok header)
    (read : Trailer.readEndingAt image stop header.pageSize = .ok trailer) : trailer.previousTrailer + 40 < 256 ^ 8 := by
  obtain ⟨above, -, aligned, slice, fits, placed⟩ := Trailer.readEndingAt_ok_iff.mp read
  obtain rfl := placed.ends
  have past : header.pageSize < trailer.checkpointSize := by
    unfold Trailer.size at above
    omega
  have small := tame header trailer decoded fits past (Nat.dvd_of_mod_eq_zero aligned) slice
  omega

theorem decodeHeader_eq (image : Image) (memory : image.size < 2 ^ 63) :
    decodeHeader image.bytes = settled (Header.decode image) := by
  have whole := image.length_bytes
  unfold decodeHeader Header.decode
  rw [whole]
  refine check .rfl fun long => ?_
  have full : (image.slice 0 Header.size).length = 20 := by
    rw [Image.length_slice]
    exact Nat.min_eq_left (Nat.le_of_not_lt long)
  have front : StandsAt (image.slice 0 Header.size) image.bytes 0 := by
    refine ⟨?_, by rw [full, Image.slice_eq]; rfl⟩
    rw [whole, full, Nat.zero_add]
    exact Nat.le_of_not_lt long
  rw [front.cut_eq 0 8 rfl rfl (by omega), pure_bind]
  refine check .rfl fun marked => ?_
  rw [front.word_eq 16 rfl (by omega) (by omega), pure_bind, front.cut_eq 0 16 rfl rfl (by omega), pure_bind]
  refine check .rfl fun sealed => ?_
  rw [front.word_eq 8 rfl (by omega) (by omega), pure_bind]
  refine check .rfl fun current => ?_
  rw [front.word_eq 12 rfl (by omega) (by omega), pure_bind]
  exact check .rfl fun sized => check .rfl fun page => rfl

theorem plus_link_eq (small : trailer.previousTrailer + 40 < 256 ^ 8) :
    (plus trailer.previousTrailer Trailer.size : Guarded StorageError Nat) = pure trailer.linkEnd := by
  rw [Trailer.linkEnd_of_lt small]
  exact plus_eq small

theorem linkInRange_eq (positive : 0 < pageSize) (small : trailer.previousTrailer + 40 < 256 ^ 8) :
    linkInRange trailer pageSize = pure (trailer.linkInRange pageSize) := by
  unfold linkInRange Trailer.linkInRange
  split
  · rename_i none
    rw [none]
    rfl
  · rename_i some
    rw [plus_link_eq small, pure_bind, remainder_eq positive, pure_bind, beq_false_of_ne some, Bool.false_or]

theorem readEndingAt_eq (tame : Tame image) (memory : image.size < 2 ^ 63) (decoded : Header.decode image = .ok header)
    (stop : Nat) :
    readEndingAt image.bytes stop header.pageSize = settled (Trailer.readEndingAt image stop header.pageSize) := by
  have bounds := pageSize_bounds decoded
  have whole := image.length_bytes
  have full := image.length_slice (stop - Trailer.size) Trailer.size
  unfold readEndingAt Trailer.readEndingAt
  extract_lets raw stored trailer refuse
  have cut : image.slice (stop - Trailer.size) Trailer.size = raw := rfl
  clear_value raw
  rw [plus_eq (by unfold Trailer.size; omega), pure_bind]
  refine check (by rw [whole]) fun placed => ?_
  have above : header.pageSize + 40 ≤ stop ∧ stop ≤ image.size := by
    unfold Trailer.size at placed
    omega
  have long : raw.length = 40 := by
    rw [cut] at full
    unfold Trailer.size at full
    omega
  rw [remainder_eq (by omega), pure_bind]
  refine check .rfl fun aligned => ?_
  have front : image.slice (stop - Trailer.size) 8 = raw.slice 0 8 := by
    rw [← cut, Image.slice_slice image (by decide), Nat.add_zero]
  rw [minus_eq (by unfold Trailer.size; omega), pure_bind, cut_eq (by omega) (by omega), pure_bind,
    Nat.sub_sub_self (by unfold Trailer.size; omega), ← Image.slice_eq, cut, cut_eq (by omega) (by omega), pure_bind]
  refine check (by rw [front]) fun marked => ?_
  rw [word_eq (by omega) (by omega), pure_bind, cut_eq (by omega) (by omega), pure_bind]
  refine check .rfl fun sealed => ?_
  rw [word_eq (by omega) (by omega), pure_bind, word_eq (by omega) (by omega), pure_bind, word_eq (by omega) (by omega),
    pure_bind, word_eq (by omega) (by omega), pure_bind]
  refine check .rfl fun ends => ?_
  have same : trailer.checkpointSize = stop := not_not.mp ends
  rw [minus_eq (by show 40 ≤ trailer.checkpointSize; omega), pure_bind]
  refine check .rfl fun between => ?_
  -- by now the forty bytes are those of a trailer
  rw [front] at marked
  have spelled : image.slice trailer.offset Trailer.size = trailer.encode := by
    rw [Trailer.offset, same, cut]
    exact (Trailer.encode_ofBytes long (not_not.mp marked) (not_not.mp sealed)).symm
  have small := tame header trailer decoded (Trailer.fits_ofBytes raw) (by omega)
    (Nat.dvd_of_mod_eq_zero (same ▸ not_not.mp aligned)) spelled
  have linked : linkInRange ⟨LittleEndian.read raw 8 8, LittleEndian.read raw 16 8, LittleEndian.read raw 24 8,
      LittleEndian.read raw 32 4⟩ header.pageSize = pure (trailer.linkInRange header.pageSize) :=
    linkInRange_eq (by omega) (show trailer.previousTrailer + 40 < 256 ^ 8 by omega)
  rw [linked, pure_bind]
  exact check .rfl fun inRange => rfl

/-- Reading the bytes up to `limit` from `offset` on is reading the image up to there. -/
theorem block_eq {offset limit : Nat} (ordered : offset ≤ limit) (inside : limit ≤ image.size) (memory : image.size < 2 ^ 63) :
    block image.bytes offset limit = settled (Block.decode (image.slice offset (limit - offset)) offset) := by
  have whole := image.length_bytes
  have room : (image.slice offset (limit - offset)).length = limit - offset := by
    rw [Image.length_slice]
    omega
  have window : StandsAt (image.slice offset (limit - offset)) image.bytes offset :=
    ⟨by omega, by rw [room, Image.slice_eq]⟩
  unfold block Block.decode
  generalize image.slice offset (limit - offset) = bytes at room window
  extract_lets refuse length body stored keyLength valueLength value
  rw [plus_eq (by unfold Change.overhead; omega), pure_bind]
  have cutOff : (bytes.take Change.overhead).length < Change.overhead ↔ limit < offset + Change.overhead := by
    rw [List.length_take, room]
    omega
  refine check (by rw [cutOff]; omega) fun long => ?_
  rw [cutOff] at long
  unfold Change.overhead at *
  have bound : length < 256 ^ 4 := LittleEndian.read_lt bytes 0 4
  rw [window.word_eq 0 (by omega) (by omega) (by omega), pure_bind]
  change (plus offset length >>= _) = _
  rw [plus_eq (by omega), pure_bind]
  have measured : body.length < length ↔ limit < offset + length := by
    show (bytes.take length).length < length ↔ _
    rw [List.length_take, room]
    omega
  refine check (by rw [measured]; omega) fun sized => ?_
  rw [measured] at sized
  have inner : StandsAt body image.bytes offset := window.take length
  have full : body.length = length := List.length_take_of_le (by omega)
  clear_value body length
  rw [minus_eq (by omega), pure_bind, inner.word_eq (length - 4) (by omega) (by omega) (by omega), pure_bind,
    inner.cut_eq 0 (length - 4) (Nat.add_zero _).symm (by omega) (by omega), pure_bind]
  refine check .rfl fun sealed => ?_
  rw [plus_eq (by omega), pure_bind, inner.byteAt_eq 4 rfl (by omega), pure_bind]
  cases BlockKind.ofByte? (body.getD 4 0) with
  | none => rfl
  | some kind =>
    have keyBound : keyLength < 256 ^ 4 := LittleEndian.read_lt body 5 4
    have keySize : LittleEndian.read body 5 4 = keyLength := rfl
    have valueSize : LittleEndian.read body (9 + keyLength) 4 = valueLength := rfl
    have valueBound : valueLength < 256 ^ 4 := LittleEndian.read_lt body (9 + keyLength) 4
    have found : body.slice (13 + keyLength) valueLength = value := rfl
    clear_value value valueLength keyLength
    dsimp only
    rw [plus_eq (by omega), pure_bind, inner.word_eq 5 rfl (by omega) (by omega), pure_bind, keySize, plus_eq (by omega),
      pure_bind, plus_eq (by omega), pure_bind, plus_eq (by omega), pure_bind]
    refine check (by omega) fun keyed => ?_
    rw [inner.word_eq (9 + keyLength) (by omega) (by omega) (by omega), pure_bind, valueSize, plus_eq (by omega), pure_bind,
      plus_eq (by omega), pure_bind, plus_eq (by omega), pure_bind]
    refine check (by omega) fun valued => check .rfl fun bare => ?_
    rw [inner.cut_eq 9 keyLength rfl rfl (by omega), pure_bind,
      inner.cut_eq (13 + keyLength) valueLength (by omega) rfl (by omega), pure_bind, found]
    rfl

theorem blockRun_eq {offset limit : Nat} (ordered : offset ≤ limit) (inside : limit ≤ image.size) (memory : image.size < 2 ^ 63)
    (count : Nat) :
    blockRun image.bytes limit count offset = settled (readBlocks count (image.slice offset (limit - offset)) offset) := by
  induction count generalizing offset with
  | zero => rfl
  | succ count ih =>
    rw [blockRun, readBlocks, block_eq ordered inside memory]
    cases decoded : Block.decode (image.slice offset (limit - offset)) offset with
    | error error => rfl
    | ok first =>
      obtain ⟨start, -, rest, split⟩ := Block.written_of_decode decoded
      have room := congrArg List.length split
      rw [Image.length_slice, List.length_append, Change.length_encode] at room
      have length : first.length = first.change.encodedLength := rfl
      have stop : first.stop = offset + first.length := by rw [Block.stop, start]
      have behind : (image.slice offset (limit - offset)).drop first.length
          = image.slice first.stop (limit - first.stop) := by
        rw [Image.slice_eq, Image.slice_eq, Bytes.slice, Bytes.slice, List.drop_take, List.drop_drop, stop, Nat.sub_sub]
      rw [settled_ok, pure_bind, plus_eq (by omega), pure_bind, ← stop, ih (by omega)]
      dsimp only
      rw [behind]
      cases readBlocks count (image.slice first.stop (limit - first.stop)) first.stop with
      | error error => rfl
      | ok blocks => rfl

theorem previousCheckpoint_eq (small : trailer.previousTrailer + 40 < 256 ^ 8) :
    previousCheckpoint trailer = pure trailer.previousCheckpoint := by
  unfold previousCheckpoint Trailer.previousCheckpoint
  split
  · rfl
  · exact plus_link_eq small

end Open

end Guarded
end CheckpointStore
