/-!
# Byte strings

A file image, a key and an encoded document are all lists of octets. This file fixes the type
and the two ways of addressing it: a slice by start and length, and a run of zeros.
-/

namespace CheckpointStore

/-- A byte string, first byte first. -/
abbrev Bytes := List UInt8

namespace Bytes

/-- The `length` bytes from `start` on; shorter when the bytes run out. -/
def slice (bytes : Bytes) (start length : Nat) : Bytes := (bytes.drop start).take length

def zeros (count : Nat) : Bytes := List.replicate count 0

/-- Exactly `size` bytes: cut when longer, filled up with zeros when shorter. -/
def resize (bytes : Bytes) (size : Nat) : Bytes := bytes.take size ++ zeros (size - bytes.length)

def ofString (text : String) : Bytes := text.toUTF8.data.toList

/-- The text that the bytes spell in UTF-8, if they are well formed. -/
def toString? (bytes : Bytes) : Option String := String.fromUTF8? ⟨bytes.toArray⟩

@[simp] theorem length_zeros (count : Nat) : (zeros count).length = count := List.length_replicate

theorem length_slice (bytes : Bytes) (start length : Nat) :
    (slice bytes start length).length = min length (bytes.length - start) := by
  simp [slice]

@[simp] theorem length_resize (bytes : Bytes) (size : Nat) : (resize bytes size).length = size := by
  simp [resize]; omega

@[simp] theorem toString?_ofString (text : String) : toString? (ofString text) = some text := by
  simp [toString?, ofString, String.fromUTF8?, String.toUTF8, text.isValidUTF8, String.fromUTF8]

end Bytes
end CheckpointStore
