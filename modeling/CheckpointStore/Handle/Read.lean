import CheckpointStore.Handle.Basic

/-!
# Reading through a handle

Reads see staged changes over committed documents. A document under edit that was not changed
reads as what is committed.
-/

namespace CheckpointStore

/-- Two ascending lists of entries merged into one: where both have a key the left entry decides,
given the right one. Entries that come to nothing are left out. -/
def mergeEntries {α β γ : Type} (left : α → Option β → Option γ) (right : β → γ) :
    List (Bytes × α) → List (Bytes × β) → List (Bytes × γ)
  | [], rest => rest.map fun (key, b) => (key, right b)
  | rest, [] => rest.filterMap fun (key, a) => (left a none).map (key, ·)
  | (k, a) :: as, (l, b) :: bs =>
    if k < l then
      match left a none with
      | some c => (k, c) :: mergeEntries left right as ((l, b) :: bs)
      | none => mergeEntries left right as ((l, b) :: bs)
    else if k = l then
      match left a (some b) with
      | some c => (k, c) :: mergeEntries left right as bs
      | none => mergeEntries left right as bs
    else (l, right b) :: mergeEntries left right ((k, a) :: as) bs
termination_by as bs => as.length + bs.length

namespace Handle

def committed? (handle : Handle) (key : Bytes) : Option Bytes :=
  (handle.index.get? key).map fun entry => entry.value handle.image

def get? (handle : Handle) (key : Bytes) : Option Bytes :=
  match handle.staged.get? key with
  | some .removed => none
  | some (.value bytes) => some bytes
  | some (.editable document) => if document.changed then some document.encode else handle.committed? key
  | none => handle.committed? key

def getDocument? (handle : Handle) (key : Bytes) : Except DatabaseError (Option Value) :=
  match handle.staged.get? key with
  | some (.editable document) => .ok (some document.value)
  | _ =>
    match handle.get? key with
    | none => .ok none
    | some bytes =>
      match Value.decode bytes with
      | .ok value => .ok (some value)
      | .error error => .error (.document error)

def contains (handle : Handle) (key : Bytes) : Bool :=
  match handle.staged.get? key with
  | some .removed => false
  | some _ => true
  | none => handle.index.contains key

/-- How many documents staged changes add: those of keys that are not committed. -/
def added (handle : Handle) : Nat :=
  handle.staged.entries.countP fun (key, pending) =>
    match pending with
    | .removed => false
    | _ => !handle.index.contains key

def removed (handle : Handle) : Nat :=
  handle.staged.entries.countP fun (key, pending) =>
    match pending with
    | .removed => handle.index.contains key
    | _ => false

def size (handle : Handle) : Nat := handle.index.size + handle.added - handle.removed

def isEmpty (handle : Handle) : Bool := handle.size == 0

def overlay (image : Image) : Pending → Option IndexEntry → Option Bytes
  | .removed, _ => none
  | .value bytes, _ => some bytes
  | .editable document, some entry =>
    if document.changed then some document.encode else some (entry.value image)
  | .editable document, none => some document.encode

/-- The documents with keys at or after `start`, in key order, staged changes included. -/
def documentsFrom (handle : Handle) (start : Bytes) : List (Bytes × Bytes) :=
  mergeEntries (overlay handle.image) (fun entry => entry.value handle.image)
    (handle.staged.startingAt start) (handle.index.entries.startingAt start)

def documents (handle : Handle) : List (Bytes × Bytes) := handle.documentsFrom []

def hasChanges (handle : Handle) : Bool := handle.staged.entries.any fun (_, pending) => pending.isWrite

/-- A summary of a handle's state. -/
structure Stats where
  checkpoint : Nat
  previousCheckpoint : Nat
  checkpoints : Nat
  documents : Nat
  pendingChanges : Nat
  fileSize : Nat
  pageSize : Nat
  recovery : Recovery
  deriving DecidableEq, Repr

def stats (handle : Handle) : Stats where
  checkpoint := handle.checkpoint
  previousCheckpoint := handle.previousCheckpoint
  checkpoints := handle.checkpoints.length
  documents := handle.size
  pendingChanges := handle.staged.size
  fileSize := handle.image.size
  pageSize := handle.pageSize
  recovery := handle.recovery

end Handle
end CheckpointStore
