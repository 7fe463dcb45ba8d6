import CheckpointStore.Files.Host
import CheckpointStore.Handle.Load
import CheckpointStore.Handle.Read
import CheckpointStore.Image.Append

/-!
# Database files

Opening a database by its path, and writing a compacted copy: a file with the live documents in
one checkpoint and no history.
-/

namespace CheckpointStore

/-- An open database and the device it commits to. -/
structure OpenDatabase (m : Type → Type) where
  device : Device m
  handle : Handle

namespace Handle

def openPath {m : Type → Type} [Monad m] (host : Host m) (path : String) (mode : OpenMode) (settings : Settings) :
    m (Reported (OpenDatabase m)) := do
  match ← host.openDevice path mode.isWritable (mode == .createAndWrite) with
  | .error error => return ⟨.error (.storage error), [.fileNotOpened path error]⟩
  | .ok device =>
    let ⟨result, events⟩ ← load device mode settings
    return ⟨result.map fun handle => ⟨device, handle⟩, events⟩

/-- The changes that make an empty database hold what the handle reads. -/
def liveChanges (handle : Handle) : List Change :=
  handle.documents.map fun (key, value) => ⟨key, some value⟩

def compacted (handle : Handle) : Except StorageError Bytes :=
  buildCompacted handle.pageSize handle.liveChanges

def exportFailure (handle : Handle) (target : String) (error : StorageError) : Reported Unit :=
  ⟨.error (.storage error), [.exportBegin handle.location target, .exportFailed target (.storage error)]⟩

def exportTo {m : Type → Type} [Monad m] (host : Host m) (handle : Handle) (target : String) :
    m (Reported Unit) := do
  match handle.compacted with
  | .error error => return handle.exportFailure target error
  | .ok image =>
    host.reach .exportBeforeWrite
    match ← host.replaceFile target image with
    | .error error => return handle.exportFailure target error
    | .ok () =>
      return ⟨.ok (), [.exportBegin handle.location target,
        .exportComplete target handle.documents.length image.length]⟩

end Handle
end CheckpointStore
