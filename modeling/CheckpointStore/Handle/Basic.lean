import CheckpointStore.Event
import CheckpointStore.Image.Layout
import CheckpointStore.Image.LiveIndex
import CheckpointStore.Json.Editable

/-!
# Handles

An open database: the file image it was read from and has appended to, the index of the current
checkpoint, and the changes staged since. A view of an older checkpoint is a handle that takes no
changes.
-/

namespace CheckpointStore

/-- What the tail of the file was like at open. It never changes for the life of a handle. -/
inductive Recovery where
  /-- The newest checkpoint ends at the end of the file -/
  | clean
  /-- So many bytes after the newest valid checkpoint were ignored -/
  | damaged (discardedBytes : Nat)
  deriving DecidableEq, Repr

namespace Recovery

def ofLayout (layout : Layout) : Recovery :=
  match layout.damage with
  | some damage => .damaged damage.discardedBytes
  | none => .clean

def isDamaged : Recovery → Bool
  | .clean => false
  | .damaged _ => true

def discardedBytes : Recovery → Nat
  | .clean => 0
  | .damaged discardedBytes => discardedBytes

end Recovery

/-- A staged change of one key. -/
inductive Pending where
  | removed
  | value (bytes : Bytes)
  /-- The key's document is being edited; it is written only if it was changed -/
  | editable (document : EditableDocument)
  deriving Repr

namespace Pending

/-- The bytes that a commit writes: a removal, a value, or nothing at all. -/
def written? : Pending → Option (Option Bytes)
  | .removed => some none
  | .value bytes => some (some bytes)
  | .editable document => if document.changed then some (some document.encode) else none

def isWrite : Pending → Bool
  | .removed => true
  | .value _ => true
  | .editable document => document.changed

theorem isWrite_eq (pending : Pending) : pending.isWrite = pending.written?.isSome := by
  cases pending with
  | removed => rfl
  | value bytes => rfl
  | editable document => cases h : document.changed <;> simp [isWrite, written?, h]

end Pending

/-- The changes staged since the last commit. -/
abbrev Staging := KeyMap Pending

/-- The blocks that a commit of the staged changes writes, in key order. -/
def Staging.changes (staging : Staging) : List Change :=
  staging.entries.filterMap fun (key, pending) => pending.written?.map fun value => ⟨key, value⟩

/-- What a handle may be used for. -/
inductive Access where
  | write
  | read
  /-- A view of an older checkpoint, without a store of its own -/
  | view
  deriving DecidableEq, Repr

/-- An open database, or a view of one of its checkpoints. -/
structure Handle where
  /-- The bytes of the file as the handle knows it -/
  image : Image
  header : Header
  /-- The current checkpoint's trailer; none before the first commit -/
  current : Option Trailer
  /-- Identifiers of the checkpoints on the chain, oldest first -/
  checkpoints : List Nat
  index : LiveIndex
  staged : Staging
  recovery : Recovery
  access : Access
  settings : Settings
  location : String
  /-- A failed append could not be cut back, so the store does not end where the image does -/
  poisoned : Bool

namespace Handle

def ensureWritable (handle : Handle) : Except DatabaseError Unit :=
  match handle.access with
  | .view => .error (.readOnly .historicalView)
  | .read => .error (.readOnly .openedReadOnly)
  | .write => .ok ()

/-- Identifier of the current checkpoint, zero before the first commit. -/
def checkpoint (handle : Handle) : Nat := (handle.current.map Trailer.checkpointSize).getD 0

/-- Identifier of the checkpoint before the current one, zero if there is none. -/
def previousCheckpoint (handle : Handle) : Nat := (handle.current.map Trailer.previousCheckpoint).getD 0

def history (handle : Handle) : List Nat := handle.checkpoints.reverse

def isView (handle : Handle) : Bool := handle.access == .view

def pageSize (handle : Handle) : Nat := handle.header.pageSize

end Handle
end CheckpointStore
