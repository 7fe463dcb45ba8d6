import CheckpointStore.Device.Basic
import CheckpointStore.Handle.Basic

/-!
# Opening a database

A handle is made from a file image alone: the layout says where the newest valid checkpoint is,
the chain gives the history and its replay the index. Views of older checkpoints come from the
same image.
-/

namespace CheckpointStore

/-- What an operation on a database came to, and what it reported. -/
structure Reported (α : Type) where
  result : Except DatabaseError α
  events : List Event := []

namespace Handle

def accessOf (mode : OpenMode) : Access := if mode.isWritable then .write else .read

def ofImage (image : Image) (mode : OpenMode) (settings : Settings) (location : String) :
    Except StorageError (Handle × List Event) :=
  match Layout.load image with
  | .error error => .error error
  | .ok layout =>
    let stop := (layout.current.map Trailer.checkpointSize).getD 0
    match chain image layout.header.pageSize stop with
    | .error error => .error error
    | .ok trailers =>
      match LiveIndex.build image layout.header.pageSize stop with
      | .error error => .error error
      | .ok index =>
        let recovery := Recovery.ofLayout layout
        let damage := layout.damage.toList.map fun damage =>
          Event.tailDamageRecovered location stop damage.discardedBytes damage.reason.text
        .ok
          ({ image, header := layout.header, current := layout.current,
             checkpoints := (trailers.map Trailer.checkpointSize).reverse, index,
             staged := KeyMap.empty, recovery, access := accessOf mode, settings, location,
             poisoned := false },
            damage ++ [.openComplete location stop index.size recovery.isDamaged])

def newImage (settings : Settings) : Image := .ofBytes (Header.ofPageSize settings.pageSize).encode

/-- Reads the image from a device, after giving an empty one a header where the mode says so. -/
def readImage {m : Type → Type} [Monad m] (device : Device m) (mode : OpenMode) (settings : Settings) :
    m (Except StorageError Image) := do
  match ← device.readAll with
  | .error error => return .error error
  | .ok image =>
    if image.isEmpty && mode == .createAndWrite then
      match ← device.append (newImage settings).bytes with
      | .error error => return .error error
      | .ok () =>
        match ← device.sync with
        | .error error => return .error error
        | .ok () => return .ok (newImage settings)
    else return .ok image

def openFailure (location : String) (mode : OpenMode) (error : DatabaseError) : Reported Handle :=
  ⟨.error error, [.openBegin location mode, .openFailed location error]⟩

def load {m : Type → Type} [Monad m] (device : Device m) (mode : OpenMode) (settings : Settings) :
    m (Reported Handle) := do
  match settings.validate with
  | .error error => return openFailure device.location mode (.settings error)
  | .ok () =>
    match ← readImage device mode settings with
    | .error error => return openFailure device.location mode (.storage error)
    | .ok image =>
      match ofImage image mode settings device.location with
      | .error error => return openFailure device.location mode (.storage error)
      | .ok (handle, events) => return ⟨.ok handle, .openBegin device.location mode :: events⟩

/-- The current trailer, the checkpoints and the index of a view; all empty for checkpoint zero. -/
def viewParts (handle : Handle) (checkpoint : Nat) :
    Except DatabaseError (Option Trailer × List Nat × LiveIndex) :=
  if checkpoint = 0 then .ok (none, [], LiveIndex.empty)
  else if checkpoint ∈ handle.checkpoints then
    match Trailer.readEndingAt handle.image checkpoint handle.pageSize with
    | .error error => .error (.storage error)
    | .ok trailer =>
      match LiveIndex.build handle.image handle.pageSize checkpoint with
      | .error error => .error (.storage error)
      | .ok index =>
        .ok (some trailer, handle.checkpoints.take (handle.checkpoints.idxOf checkpoint + 1), index)
  else .error (.unknownCheckpoint checkpoint)

/-- A view of a checkpoint on the handle's chain, or of the empty database for checkpoint zero. It
sees none of the handle's staged changes. -/
def viewAt (handle : Handle) (checkpoint : Nat) : Reported Handle :=
  match handle.viewParts checkpoint with
  | .error error => ⟨.error error, []⟩
  | .ok (current, checkpoints, index) =>
    ⟨.ok { handle with
        current, checkpoints, index
        staged := KeyMap.empty
        recovery := .clean
        access := .view
        poisoned := false },
      [.historicalViewOpened handle.location checkpoint index.size]⟩

end Handle
end CheckpointStore
