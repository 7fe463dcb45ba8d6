import CheckpointStore.Image.Basic
import CheckpointStore.StorageError

/-!
# Devices

What a database asks of the place where its bytes are: read all, append, make durable, cut back.
The monad is that of the place, so that the same database runs over a store in memory, over a
model of a file system and over real files.
-/

namespace CheckpointStore

/-- A moment at which a process may be made to die, to test what is left behind. -/
inductive CrashPoint where
  /-- Before any byte of a checkpoint is appended -/
  | commitBeforeBlocks
  /-- Blocks are durable, the trailer is not yet written -/
  | commitAfterBlocks
  /-- The trailer is durable, the handle not yet updated -/
  | commitAfterTrailer
  /-- The compacted image is built, the target not yet written -/
  | exportBeforeWrite
  deriving DecidableEq, Repr

namespace CrashPoint

def all : List CrashPoint := [.commitBeforeBlocks, .commitAfterBlocks, .commitAfterTrailer, .exportBeforeWrite]

def name : CrashPoint → String
  | .commitBeforeBlocks => "commit_before_blocks"
  | .commitAfterBlocks => "commit_after_blocks"
  | .commitAfterTrailer => "commit_after_trailer"
  | .exportBeforeWrite => "export_before_write"

def ofName? (name : String) : Option CrashPoint := all.find? fun point => point.name == name

end CrashPoint

/-- A place for the bytes of one database. -/
structure Device (m : Type → Type) where
  location : String
  readAll : m (Except StorageError Image)
  /-- Puts bytes behind those that are stored -/
  append : Bytes → m (Except StorageError Unit)
  sync : m (Except StorageError Unit)
  truncate : Nat → m (Except StorageError Unit)
  reach : CrashPoint → m Unit

end CheckpointStore
