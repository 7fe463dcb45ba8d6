import CheckpointStore.Bytes.Crc32
import CheckpointStore.Bytes.LittleEndian
import CheckpointStore.Image.Basic
import CheckpointStore.StorageError

/-!
# File header

The first page of a file: magic, format version, page size and a checksum over these sixteen
bytes, then zeros up to the page size. Without a trusted page size nothing after the header can
be found, so every fault here is fatal.
-/

namespace CheckpointStore

def isPageSize (size : Nat) : Bool := 512 ≤ size && size ≤ 65536 && 1 <<< size.log2 == size

/-- What a file header records. -/
structure Header where
  version : Nat
  pageSize : Nat
  deriving DecidableEq, Repr

namespace Header

def magic : Bytes := [0x4B, 0x45, 0x45, 0x4C, 0x44, 0x42, 0x00, 0x01]

def currentVersion : Nat := 1

/-- Bytes that carry information; the rest of the page is padding. -/
def size : Nat := 20

def ofPageSize (pageSize : Nat) : Header := ⟨currentVersion, pageSize⟩

def fields (header : Header) : Bytes :=
  magic ++ LittleEndian.encode 4 header.version ++ LittleEndian.encode 4 header.pageSize

/-- The header page: fields, checksum and padding, cut when the page is shorter than they are. -/
def encode (header : Header) : Bytes :=
  (header.fields ++ LittleEndian.encode 4 (Crc32.checksum header.fields).toNat).resize header.pageSize

def decode (image : Image) : Except StorageError Header :=
  let raw := image.slice 0 size
  let stored := LittleEndian.read raw 16 4
  let version := LittleEndian.read raw 8 4
  let pageSize := LittleEndian.read raw 12 4
  if image.size < size then .error (.header (.tooShort image.size))
  else if raw.take 8 ≠ magic then .error (.header .magic)
  else if (Crc32.checksum (raw.take 16)).toNat ≠ stored then
    .error (.header (.checksum (UInt32.ofNat stored)))
  else if version ≠ currentVersion then .error (.header (.version version))
  else if isPageSize pageSize = false then .error (.header (.pageSize pageSize))
  else if image.size < pageSize then .error (.header (.shorterThanPage image.size pageSize))
  else .ok ⟨version, pageSize⟩

@[simp] theorem length_encode (header : Header) : header.encode.length = header.pageSize := by
  simp [encode]

end Header
end CheckpointStore
