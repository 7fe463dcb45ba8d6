import CheckpointStore.Bytes.Crc32
import CheckpointStore.Bytes.LittleEndian
import CheckpointStore.Image.Basic
import CheckpointStore.StorageError

/-!
# Checkpoint trailers

A trailer closes every checkpoint and ends on a page boundary. It records where the previous
trailer is, the size of the file once it is written, where the checkpoint's blocks start and how
many there are. The file size doubles as the checkpoint's public identifier.
-/

namespace CheckpointStore

/-- What a trailer records. -/
structure Trailer where
  /-- Offset of the previous checkpoint's trailer, zero if there is none -/
  previousTrailer : Nat
  /-- Size of the file up to the end of this trailer; the checkpoint's identifier -/
  checkpointSize : Nat
  blocksStart : Nat
  blockCount : Nat
  deriving DecidableEq, Repr

namespace Trailer

def size : Nat := 40

def magic : Bytes := [0x4B, 0x45, 0x45, 0x4C, 0x54, 0x52, 0x4C, 0x52]

def offset (trailer : Trailer) : Nat := trailer.checkpointSize - size

/-- Where the previous trailer ends. The sum is a number of eight bytes, as the link is: past the last of
them it starts over at zero. -/
def linkEnd (trailer : Trailer) : Nat := (trailer.previousTrailer + size) % UInt64.size

/-- Identifier of the checkpoint before, zero if there is none. -/
def previousCheckpoint (trailer : Trailer) : Nat :=
  if trailer.previousTrailer = 0 then 0 else trailer.linkEnd

def fields (trailer : Trailer) : Bytes :=
  magic ++ LittleEndian.encode 8 trailer.previousTrailer ++ LittleEndian.encode 8 trailer.checkpointSize
    ++ LittleEndian.encode 8 trailer.blocksStart ++ LittleEndian.encode 4 trailer.blockCount

def encode (trailer : Trailer) : Bytes :=
  trailer.fields ++ LittleEndian.encode 4 (Crc32.checksum trailer.fields).toNat

@[simp] theorem length_encode (trailer : Trailer) : trailer.encode.length = size := by
  simp [encode, fields, magic, size]

/-- Whether the previous trailer starts past the header and ends before the blocks, on a page. -/
def linkInRange (trailer : Trailer) (pageSize : Nat) : Bool :=
  trailer.previousTrailer == 0 ||
    (pageSize ≤ trailer.previousTrailer && trailer.linkEnd ≤ trailer.blocksStart && trailer.linkEnd % pageSize == 0)

/-- The trailer that ends at `stop`, with its own fields checked but not the blocks it covers. -/
def readEndingAt (image : Image) (stop pageSize : Nat) : Except StorageError Trailer :=
  let raw := image.slice (stop - size) size
  let stored := LittleEndian.read raw 36 4
  let trailer : Trailer :=
    ⟨LittleEndian.read raw 8 8, LittleEndian.read raw 16 8, LittleEndian.read raw 24 8, LittleEndian.read raw 32 4⟩
  let refuse (fault : CheckpointFault) : Except StorageError Trailer := .error (.checkpoint (stop - size) fault)
  if stop < pageSize + size ∨ image.size < stop then .error (.checkpoint stop .trailerOutside)
  else if stop % pageSize ≠ 0 then .error (.checkpoint stop .trailerUnaligned)
  else if image.slice (stop - size) 8 ≠ magic then refuse .trailerMagic
  else if (Crc32.checksum (raw.take 36)).toNat ≠ stored then refuse (.trailerChecksum (UInt32.ofNat stored))
  else if trailer.checkpointSize ≠ stop then refuse (.trailerSize trailer.checkpointSize stop)
  else if trailer.blocksStart < pageSize ∨ trailer.offset < trailer.blocksStart then
    refuse (.blocksStart trailer.blocksStart)
  else if trailer.linkInRange pageSize = false then refuse (.previousTrailer trailer.previousTrailer)
  else .ok trailer

end Trailer
end CheckpointStore
