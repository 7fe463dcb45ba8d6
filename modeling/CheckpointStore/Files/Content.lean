import CheckpointStore.Image.Basic

/-!
# File contents

What a file holds, stretch by stretch: images that were written, and holes, which read as zeros
and take no room. A file that was extended far and cut back again costs nothing. Main statements:
what appending and resizing do to the bytes.
-/

namespace CheckpointStore

/-- A stretch of a file. -/
inductive Extent where
  | written (image : Image)
  /-- So many zeros by which the file was extended -/
  | hole (size : Nat)
  deriving DecidableEq

namespace Extent

def size : Extent → Nat
  | .written image => image.size
  | .hole size => size

def bytes : Extent → Bytes
  | .written image => image.bytes
  | .hole size => Bytes.zeros size

def appendTo (image : Image) : Extent → Image
  | .written more => image ++ more
  | .hole size => image.extend size

def take (extent : Extent) (count : Nat) : Extent :=
  match extent with
  | .written image => .written (image.take count)
  | .hole size => .hole (min count size)

@[simp] theorem length_bytes (extent : Extent) : extent.bytes.length = extent.size := by
  cases extent <;> simp [bytes, size, Image.length_bytes]

@[simp] theorem bytes_take (extent : Extent) (count : Nat) : (extent.take count).bytes = extent.bytes.take count := by
  cases extent <;> simp [bytes, take, Bytes.zeros]

@[simp] theorem bytes_appendTo (image : Image) (extent : Extent) :
    (appendTo image extent).bytes = image.bytes ++ extent.bytes := by
  cases extent <;> simp [bytes, appendTo]

end Extent

/-- The content of a file. -/
structure FileContent where
  /-- Its stretches from the start to the end -/
  extents : List Extent := []
  deriving DecidableEq

namespace FileContent

def ofImage (image : Image) : FileContent := ⟨[.written image]⟩

def bytesOf (extents : List Extent) : Bytes := extents.flatMap Extent.bytes

def lengthOf : List Extent → Nat
  | [] => 0
  | extent :: rest => extent.size + lengthOf rest

def bytes (content : FileContent) : Bytes := bytesOf content.extents

def size (content : FileContent) : Nat := lengthOf content.extents

def image (content : FileContent) : Image := content.extents.foldl Extent.appendTo (.withRoom content.size)

def takeExtents : List Extent → Nat → List Extent
  | [], _ => []
  | extent :: rest, count =>
    if count ≤ extent.size then [extent.take count] else extent :: takeExtents rest (count - extent.size)

def append (content : FileContent) (bytes : Bytes) : FileContent :=
  ⟨content.extents ++ [.written (.ofBytes bytes)]⟩

def resize (content : FileContent) (size : Nat) : FileContent :=
  if content.size < size then ⟨content.extents ++ [.hole (size - content.size)]⟩
  else ⟨takeExtents content.extents size⟩

theorem bytes_foldl (extents : List Extent) (image : Image) :
    (extents.foldl Extent.appendTo image).bytes = image.bytes ++ bytesOf extents := by
  induction extents generalizing image with
  | nil => simp [bytesOf]
  | cons extent rest ih => simp [ih, bytesOf]

@[simp] theorem bytes_image (content : FileContent) : content.image.bytes = content.bytes := by
  simp [image, bytes, bytes_foldl]

theorem bytesOf_cons (extent : Extent) (rest : List Extent) : bytesOf (extent :: rest) = extent.bytes ++ bytesOf rest :=
  rfl

theorem length_bytesOf (extents : List Extent) : (bytesOf extents).length = lengthOf extents := by
  induction extents with
  | nil => rfl
  | cons extent rest ih => rw [bytesOf_cons, List.length_append, ih, Extent.length_bytes, lengthOf]

theorem length_bytes (content : FileContent) : content.bytes.length = content.size := length_bytesOf _

theorem bytesOf_takeExtents (extents : List Extent) (count : Nat) :
    bytesOf (takeExtents extents count) = (bytesOf extents).take count := by
  induction extents generalizing count with
  | nil => simp [takeExtents, bytesOf]
  | cons extent rest ih =>
    rw [takeExtents]
    split
    · rename_i fits
      simp [bytesOf, List.take_append_of_le_length, fits]
    · rename_i longer
      have all : extent.bytes.take count = extent.bytes := List.take_of_length_le (by simp; omega)
      rw [bytesOf_cons, bytesOf_cons, List.take_append, all, Extent.length_bytes, ih]

@[simp] theorem bytes_ofImage (image : Image) : (ofImage image).bytes = image.bytes := by
  simp [ofImage, bytes, bytesOf, Extent.bytes]

@[simp] theorem bytes_append (content : FileContent) (bytes : Bytes) :
    (content.append bytes).bytes = content.bytes ++ bytes := by
  simp [append, FileContent.bytes, bytesOf, Extent.bytes]

@[simp] theorem bytes_resize (content : FileContent) (size : Nat) :
    (content.resize size).bytes = content.bytes.resize size := by
  rw [resize, Bytes.resize, length_bytes]
  split
  · rename_i shorter
    rw [List.take_of_length_le (by rw [length_bytes]; omega)]
    simp [FileContent.bytes, bytesOf, Extent.bytes]
  · rename_i enough
    have none_left : size - content.size = 0 := by omega
    simp [none_left, FileContent.bytes, bytesOf_takeExtents, Bytes.zeros]

end FileContent
end CheckpointStore
