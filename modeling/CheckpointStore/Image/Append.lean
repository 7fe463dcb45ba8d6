import CheckpointStore.Format.Header
import CheckpointStore.Image.Checkpoint

/-!
# Laying out a new checkpoint

New blocks go at the current end of the file, and the trailer is padded out to the next page
boundary, so nothing that was written before is touched.
-/

namespace CheckpointStore

/-- The least multiple of `multiple` that is at least `value`. -/
def roundUp (value multiple : Nat) : Nat := (value + multiple - 1) / multiple * multiple

/-- The bytes that a checkpoint appends, in the two parts in which they are made durable. -/
structure PendingCheckpoint where
  blocks : Bytes
  tail : Bytes
  trailer : Trailer
  deriving DecidableEq, Repr

namespace PendingCheckpoint

def bytes (pending : PendingCheckpoint) : Bytes := pending.blocks ++ pending.tail

def size (pending : PendingCheckpoint) : Nat := pending.blocks.length + pending.tail.length

/-- The trailer of a checkpoint whose blocks fill the file from `fileSize` to `blocksEnd`. -/
def trailerFor (fileSize blocksEnd pageSize : Nat) (previous : Option Trailer) (count : Nat) : Trailer where
  previousTrailer := (previous.map Trailer.offset).getD 0
  checkpointSize := roundUp (blocksEnd + Trailer.size) pageSize
  blocksStart := fileSize
  blockCount := count

/-- The least number of blocks that does not fit the count of a trailer. -/
def countLimit : Nat := 4294967296

/-- The checkpoint with these changes, in this order, at the end of a file of `fileSize` bytes. -/
def build (fileSize pageSize : Nat) (previous : Option Trailer) (changes : List Change) :
    Except StorageError PendingCheckpoint :=
  if countLimit ≤ changes.length then .error (.tooLarge (.blockCount changes.length))
  else
    match Change.encodeAll? changes with
    | .error error => .error error
    | .ok blocks =>
      let blocksEnd := fileSize + blocks.length
      let trailer := trailerFor fileSize blocksEnd pageSize previous changes.length
      .ok ⟨blocks, Bytes.zeros (trailer.offset - blocksEnd) ++ trailer.encode, trailer⟩

end PendingCheckpoint

/-- A whole file with a header and one checkpoint, or a header alone when there are no changes. -/
def buildCompacted (pageSize : Nat) (changes : List Change) : Except StorageError Bytes :=
  let header := (Header.ofPageSize pageSize).encode
  if changes.isEmpty then .ok header
  else
    match PendingCheckpoint.build header.length pageSize none changes with
    | .error error => .error error
    | .ok pending => .ok (header ++ pending.bytes)

end CheckpointStore
