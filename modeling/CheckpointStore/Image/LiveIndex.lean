import CheckpointStore.Image.Chain
import CheckpointStore.Image.Checkpoint
import CheckpointStore.KeyMap

/-!
# Live index

Where each live key's document lies in the file, as of one checkpoint. The index is the replay
of the chain's blocks, oldest first: a document shadows what its key had, a removal drops it.
-/

namespace CheckpointStore

/-- Where a document lies. -/
structure IndexEntry where
  valueOffset : Nat
  valueLength : Nat
  checkpoint : Nat
  deriving DecidableEq, Repr

def IndexEntry.value (entry : IndexEntry) (image : Image) : Bytes :=
  image.slice entry.valueOffset entry.valueLength

/-- The live keys as of one checkpoint. -/
structure LiveIndex where
  entries : KeyMap IndexEntry
  checkpoint : Nat
  deriving DecidableEq

namespace LiveIndex

def empty : LiveIndex := ⟨KeyMap.empty, 0⟩

def applyBlock (checkpoint : Nat) (entries : KeyMap IndexEntry) (block : Block) :
    KeyMap IndexEntry :=
  match block.change.value with
  | some value => entries.insert block.change.key ⟨block.valueOffset, value.length, checkpoint⟩
  | none => entries.erase block.change.key

/-- Applies the blocks of one checkpoint on top of the index. -/
def apply (index : LiveIndex) (image : Image) (trailer : Trailer) : Except StorageError LiveIndex :=
  match trailer.blocks image with
  | .error error => .error error
  | .ok blocks =>
    .ok ⟨blocks.foldl (applyBlock trailer.checkpointSize) index.entries, trailer.checkpointSize⟩

def applyAll (image : Image) : List Trailer → LiveIndex → Except StorageError LiveIndex
  | [], index => .ok index
  | trailer :: rest, index =>
    match index.apply image trailer with
    | .error error => .error error
    | .ok index => applyAll image rest index

/-- The index as of the checkpoint that ends at `stop`; bytes past it play no part. -/
def build (image : Image) (pageSize stop : Nat) : Except StorageError LiveIndex :=
  match chain image pageSize stop with
  | .error error => .error error
  | .ok trailers => applyAll image trailers.reverse empty

def get? (index : LiveIndex) (key : Bytes) : Option IndexEntry := index.entries.get? key

def contains (index : LiveIndex) (key : Bytes) : Bool := index.entries.contains key

def size (index : LiveIndex) : Nat := index.entries.size

end LiveIndex
end CheckpointStore
