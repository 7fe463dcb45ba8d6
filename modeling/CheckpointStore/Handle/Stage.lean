import CheckpointStore.Handle.Read

/-!
# Staging changes

Changes are kept beside the committed documents until a commit writes them. Removing a key that
was never committed only forgets its staged value, so tombstones are written for committed keys
alone.
-/

namespace CheckpointStore

/-- When a put applies. -/
inductive PutMode where
  | insert
  | update
  | upsert
  deriving DecidableEq, Repr

/-- Whether a put applies to a key that has or has not a document. -/
def PutMode.allows : PutMode → (exists_ : Bool) → Bool
  | .insert, exists_ => !exists_
  | .update, exists_ => exists_
  | .upsert, _ => true

namespace Handle

/-- Stages bytes under a key, and says whether the mode allowed it. -/
def put (handle : Handle) (key value : Bytes) (mode : PutMode) : Except DatabaseError (Bool × Handle) :=
  match handle.ensureWritable with
  | .error error => .error error
  | .ok () =>
    if mode.allows (handle.contains key) then
      .ok (true, { handle with staged := handle.staged.insert key (.value value) })
    else .ok (false, handle)

def putDocument (handle : Handle) (key : Bytes) (document : Value) (mode : PutMode) :
    Except DatabaseError (Bool × Handle) :=
  handle.put key document.encode mode

/-- Stages the removal of a key, and says whether it had a document. -/
def remove (handle : Handle) (key : Bytes) : Except DatabaseError (Bool × Handle) :=
  match handle.ensureWritable with
  | .error error => .error error
  | .ok () =>
    if handle.contains key = false then .ok (false, handle)
    else if handle.index.contains key then .ok (true, { handle with staged := handle.staged.insert key .removed })
    else .ok (true, { handle with staged := handle.staged.erase key })

/-- An editable copy of encoded bytes, with a decoding error as the handle reports it. -/
def editableOf (bytes : Bytes) : Except DatabaseError EditableDocument :=
  match EditableDocument.ofBytes bytes with
  | .ok document => .ok document
  | .error error => .error (.document error)

/-- The document of a key taken under edit, and the handle that holds it; none when the key has no
document. A staged value is still to be written, so its document counts as changed. -/
def edit? (handle : Handle) (key : Bytes) : Except DatabaseError (Option EditableDocument × Handle) :=
  match handle.ensureWritable with
  | .error error => .error error
  | .ok () =>
    let hold (document : EditableDocument) : Option EditableDocument × Handle :=
      (some document, { handle with staged := handle.staged.insert key (.editable document) })
    match handle.staged.get? key with
    | some (.editable document) => .ok (some document, handle)
    | some .removed => .ok (none, handle)
    | some (.value bytes) =>
      match editableOf bytes with
      | .error error => .error error
      | .ok document => .ok (hold document.markChanged)
    | none =>
      match handle.committed? key with
      | none => .ok (none, handle)
      | some bytes =>
        match editableOf bytes with
        | .error error => .error error
        | .ok document => .ok (hold document)

/-- Puts an edited document back in the place from which it was taken. -/
def putBack (handle : Handle) (key : Bytes) (document : EditableDocument) : Handle :=
  { handle with staged := handle.staged.insert key (.editable document) }

def revert (handle : Handle) : Handle × List Event :=
  ({ handle with staged := KeyMap.empty }, [.changesReverted handle.location handle.staged.size])

end Handle
end CheckpointStore
