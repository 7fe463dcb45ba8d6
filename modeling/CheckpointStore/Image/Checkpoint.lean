import CheckpointStore.Format.Block
import CheckpointStore.Format.Trailer

/-!
# Checkpoints in a file image

A checkpoint is a run of blocks, padding, and a trailer that ends on a page boundary. It is valid
when its trailer and every block it counts are.
-/

namespace CheckpointStore

/-- Reads `count` blocks from `window`, the bytes from `offset` to the end of the checkpoint. -/
def readBlocks : Nat → Bytes → Nat → Except StorageError (List Block)
  | 0, _, _ => .ok []
  | count + 1, window, offset =>
    match Block.decode window offset with
    | .error error => .error error
    | .ok block =>
      match readBlocks count (window.drop block.length) block.stop with
      | .error error => .error error
      | .ok blocks => .ok (block :: blocks)

namespace Trailer

def blocks (trailer : Trailer) (image : Image) : Except StorageError (List Block) :=
  readBlocks trailer.blockCount (image.slice trailer.blocksStart (trailer.offset - trailer.blocksStart)) trailer.blocksStart

end Trailer

/-- The trailer that ends at `stop`, if it and all its blocks are valid. -/
def validateCheckpoint (image : Image) (stop pageSize : Nat) : Except StorageError Trailer :=
  match Trailer.readEndingAt image stop pageSize with
  | .error error => .error error
  | .ok trailer =>
    match trailer.blocks image with
    | .error error => .error error
    | .ok _ => .ok trailer

end CheckpointStore
