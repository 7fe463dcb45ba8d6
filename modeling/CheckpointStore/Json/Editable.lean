import CheckpointStore.Json.Decode
import CheckpointStore.Json.Encode

/-!
# Editable documents

An object under edit: its fields, and whether any edit changed or may have changed them. Only
changed documents are encoded again by a commit.
-/

namespace CheckpointStore

/-- An object under edit. -/
structure EditableDocument where
  fields : Fields
  changed : Bool
  deriving Repr

namespace EditableDocument

def ofValue : Value → Except DecodeError EditableDocument
  | .object fields => .ok ⟨fields, false⟩
  | _ => .error .notADictionary

def ofBytes (bytes : Bytes) : Except DecodeError EditableDocument :=
  match Value.decode bytes with
  | .ok value => ofValue value
  | .error error => .error error

def get? (document : EditableDocument) (field : String) : Option Value := Entries.get? field document.fields

def size (document : EditableDocument) : Nat := document.fields.length

def set (document : EditableDocument) (field : String) (value : Value) : EditableDocument :=
  ⟨Entries.insert field value document.fields, true⟩

def remove (document : EditableDocument) (field : String) : EditableDocument :=
  match document.get? field with
  | some _ => ⟨Entries.erase field document.fields, true⟩
  | none => document

/-- Edits a field in place. It counts as a change whatever the edit does, unless the field is
absent. -/
def modify (document : EditableDocument) (field : String) (edit : Value → Value) : EditableDocument :=
  match document.get? field with
  | some value => ⟨Entries.insert field (edit value) document.fields, true⟩
  | none => document

def markChanged (document : EditableDocument) : EditableDocument := { document with changed := true }

def value (document : EditableDocument) : Value := .object document.fields

def encode (document : EditableDocument) : Bytes := document.value.encode

end EditableDocument
end CheckpointStore
