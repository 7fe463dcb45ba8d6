import CheckpointStore.Bytes.Crc32
import CheckpointStore.Bytes.LittleEndian
import CheckpointStore.StorageError

/-!
# Data blocks

A checkpoint holds one block for each changed key: total length, kind, key and value behind their
lengths, and a checksum over all that comes before it. A removal is a block of its own kind with
an empty value.
-/

namespace CheckpointStore

/-- What a block records for its key. -/
inductive BlockKind where
  | document
  | tombstone
  deriving DecidableEq, Repr

namespace BlockKind

def byte : BlockKind → UInt8
  | .document => 0
  | .tombstone => 1

def ofByte? (byte : UInt8) : Option BlockKind :=
  if byte = 0 then some .document else if byte = 1 then some .tombstone else none

end BlockKind

/-- A change to one key: the value it takes, or none when the key is removed. -/
structure Change where
  key : Bytes
  value : Option Bytes
  deriving DecidableEq, Repr

namespace Change

/-- Bytes of a block besides key and value: length, kind, two lengths, checksum. -/
def overhead : Nat := 17

def valueBytes (change : Change) : Bytes := change.value.getD []

def encodedLength (change : Change) : Nat := overhead + change.key.length + change.valueBytes.length

def kind (change : Change) : BlockKind := if change.value.isSome then .document else .tombstone

def fields (change : Change) : Bytes :=
  LittleEndian.encode 4 change.encodedLength ++ [change.kind.byte]
    ++ LittleEndian.encode 4 change.key.length ++ change.key
    ++ LittleEndian.encode 4 change.valueBytes.length ++ change.valueBytes

def encode (change : Change) : Bytes :=
  change.fields ++ LittleEndian.encode 4 (Crc32.checksum change.fields).toNat

theorem length_fields (change : Change) : change.fields.length + 4 = change.encodedLength := by
  simp [fields, encodedLength, overhead]
  omega

@[simp] theorem length_encode (change : Change) : change.encode.length = change.encodedLength := by
  simp [encode, length_fields]

/-- The least length that does not fit the length field of a block. -/
def lengthLimit : Nat := 4294967296

/-- The block's bytes, unless its length does not fit the length field. -/
def encode? (change : Change) : Except StorageError Bytes :=
  if lengthLimit ≤ change.encodedLength then .error (.tooLarge (.blockLength change.encodedLength))
  else .ok change.encode

def encodeAll? : List Change → Except StorageError Bytes
  | [] => .ok []
  | change :: rest =>
    match change.encode? with
    | .error error => .error error
    | .ok block =>
      match encodeAll? rest with
      | .error error => .error error
      | .ok blocks => .ok (block ++ blocks)

end Change

/-- A block found in a file image: its offset and the change it records. -/
structure Block where
  offset : Nat
  change : Change
  deriving DecidableEq, Repr

namespace Block

def length (block : Block) : Nat := block.change.encodedLength

def valueOffset (block : Block) : Nat := block.offset + 13 + block.change.key.length

def stop (block : Block) : Nat := block.offset + block.length

/-- The block at the start of `window`, the bytes from `offset` up to the end of its checkpoint. -/
def decode (window : Bytes) (offset : Nat) : Except StorageError Block :=
  let refuse (fault : CheckpointFault) : Except StorageError Block := .error (.checkpoint offset fault)
  let length := LittleEndian.read window 0 4
  let body : Bytes := window.take length
  let stored := LittleEndian.read body (length - 4) 4
  let keyLength := LittleEndian.read body 5 4
  let valueLength := LittleEndian.read body (9 + keyLength) 4
  let value := body.slice (13 + keyLength) valueLength
  if (window.take Change.overhead).length < Change.overhead then refuse .blockCutOff
  else if length < Change.overhead ∨ body.length < length then refuse (.blockLength length)
  else if (Crc32.checksum (body.take (length - 4))).toNat ≠ stored then
    refuse (.blockChecksum (UInt32.ofNat stored))
  else match BlockKind.ofByte? (body.getD 4 0) with
    | none => refuse .blockKind
    | some kind =>
      if 17 + keyLength > length then refuse .keyLength
      else if 17 + keyLength + valueLength ≠ length then refuse .valueLength
      else if kind = .tombstone ∧ valueLength ≠ 0 then refuse .tombstoneValue
      else .ok ⟨offset, body.slice 9 keyLength, if kind = .tombstone then none else some value⟩

end Block
end CheckpointStore
