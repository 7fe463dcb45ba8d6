import CheckpointStore.Device.Basic
import CheckpointStore.Handle.Stage
import CheckpointStore.Image.Append

/-!
# Committing

A commit appends the staged changes as one checkpoint: first the blocks, then padding and
trailer, each made durable when the settings say so. The trailer makes the checkpoint visible. A
failed append is cut off again and the changes stay staged; when the cut fails too, the handle
takes no more commits.
-/

namespace CheckpointStore

/-- What a commit leaves: the handle, the checkpoint or the error, and the reports. -/
structure Committed where
  handle : Handle
  result : Except DatabaseError Nat
  events : List Event

namespace Handle

def syncIf {m : Type → Type} [Monad m] (device : Device m) (wanted : Bool) : m (Except StorageError Unit) :=
  if wanted then device.sync else pure (.ok ())

def appendDurably {m : Type → Type} [Monad m] (device : Device m) (sync : Bool) (bytes : Bytes) :
    m (Except StorageError Unit) := do
  match ← device.append bytes with
  | .error error => return .error error
  | .ok () => syncIf device sync

def appendCheckpoint {m : Type → Type} [Monad m] (device : Device m) (sync : Bool) (pending : PendingCheckpoint) :
    m (Except StorageError Unit) := do
  device.reach .commitBeforeBlocks
  match ← appendDurably device sync pending.blocks with
  | .error error => return .error error
  | .ok () =>
    device.reach .commitAfterBlocks
    appendDurably device sync pending.tail

/-- The handle after its checkpoint was appended to the file. -/
def advance (handle : Handle) (pending : PendingCheckpoint) : Committed :=
  let image := handle.image ++ Image.ofBytes pending.bytes
  let begun := Event.commitBegin handle.location pending.trailer.blockCount handle.image.size
  match handle.index.apply image pending.trailer with
  | .error error => ⟨{ handle with image }, .error (.storage error), [begun]⟩
  | .ok index =>
    let checkpoint := pending.trailer.checkpointSize
    ⟨{ handle with
        image, index
        current := some pending.trailer
        checkpoints := handle.checkpoints ++ [checkpoint]
        staged := KeyMap.empty },
      .ok checkpoint,
      [begun, .commitComplete handle.location checkpoint pending.trailer.previousCheckpoint
        pending.trailer.blockCount pending.size]⟩

/-- The handle after a failed append: unchanged, but poisoned when the cut failed as well. -/
def retreat (handle : Handle) (blocks : Nat) (error : StorageError) (cut : Except StorageError Unit) : Committed :=
  let begun := Event.commitBegin handle.location blocks handle.image.size
  let failed := Event.commitFailed handle.location error
  match cut with
  | .ok () => ⟨handle, .error (.storage error), [begun, failed]⟩
  | .error cutError =>
    ⟨{ handle with poisoned := true }, .error (.storage error),
      [begun, .cutFailed handle.location handle.image.size cutError, failed]⟩

/-- Writes every staged change as a new checkpoint and gives its identifier. Without a change to
write nothing is appended, and the current checkpoint's identifier is given. -/
def commit {m : Type → Type} [Monad m] (device : Device m) (handle : Handle) : m Committed := do
  match handle.ensureWritable with
  | .error error => return ⟨handle, .error error, []⟩
  | .ok () =>
    if handle.poisoned then
      return ⟨handle, .error (.poisoned handle.location handle.checkpoint), []⟩
    else
      let changes := handle.staged.changes
      if changes.isEmpty then
        return ⟨{ handle with staged := KeyMap.empty }, .ok handle.checkpoint,
          [.commitSkipped handle.location handle.checkpoint]⟩
      else
        match PendingCheckpoint.build handle.image.size handle.pageSize handle.current changes with
        | .error error =>
          return ⟨handle, .error (.storage error),
            [.commitBegin handle.location changes.length handle.image.size]⟩
        | .ok pending =>
          match ← appendCheckpoint device handle.settings.syncOnCommit pending with
          | .error error =>
            return handle.retreat changes.length error (← device.truncate handle.image.size)
          | .ok () =>
            device.reach .commitAfterTrailer
            return handle.advance pending

end Handle
end CheckpointStore
