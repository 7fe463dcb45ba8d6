import CheckpointStore.Bytes.Basic

/-!
# File images

The bytes of a whole file, packed, so that a part is cut out of a large file without a walk over
the rest. What an image means is its list of bytes: each operation says what it does to them, and
images with the same bytes are equal.
-/

namespace CheckpointStore

/-- The bytes of a file. -/
structure Image where
  data : ByteArray

namespace Image

def bytes (image : Image) : Bytes := image.data.data.toList

def ofBytes (bytes : Bytes) : Image := ⟨bytes.toByteArray⟩

def empty : Image := ⟨ByteArray.empty⟩

instance : Inhabited Image := ⟨empty⟩

def size (image : Image) : Nat := image.data.size

def isEmpty (image : Image) : Bool := image.size == 0

/-- The `length` bytes from `start` on; shorter when the image ends before. -/
def slice (image : Image) (start length : Nat) : Bytes :=
  (image.data.extract (min start image.size) (min (start + length) image.size)).data.toList

/-- The image cut to its first `size` bytes; the whole image when it is no longer. -/
def take (image : Image) (size : Nat) : Image := ⟨image.data.extract 0 (min size image.size)⟩

def append (front back : Image) : Image := ⟨front.data ++ back.data⟩

instance : Append Image := ⟨append⟩

def withRoom (room : Nat) : Image := ⟨ByteArray.emptyWithCapacity room⟩

def zerosAtOnce : Nat := 65536

/-- The image behind which the same block stands `count` times. -/
def appendTimes (block : Image) : Nat → Image → Image
  | 0, image => image
  | count + 1, image => appendTimes block count (image ++ block)

def extend (image : Image) (count : Nat) : Image :=
  appendTimes (ofBytes (Bytes.zeros zerosAtOnce)) (count / zerosAtOnce) image
    ++ ofBytes (Bytes.zeros (count % zerosAtOnce))

@[ext] theorem ext {a b : Image} (h : a.bytes = b.bytes) : a = b := by
  cases a; cases b
  exact congrArg mk (ByteArray.ext (Array.toList_inj.mp h))

theorem bytes_inj {a b : Image} : a.bytes = b.bytes ↔ a = b := ⟨ext, fun same => same ▸ rfl⟩

instance : DecidableEq Image := fun _ _ => decidable_of_iff _ bytes_inj

theorem length_bytes (image : Image) : image.bytes.length = image.size := by
  simp [bytes, size]

@[simp] theorem bytes_ofBytes (bytes : Bytes) : (ofBytes bytes).bytes = bytes := by
  simp [ofBytes, Image.bytes]

@[simp] theorem ofBytes_bytes (image : Image) : ofBytes image.bytes = image :=
  ext (bytes_ofBytes _)

@[simp] theorem size_ofBytes (bytes : Bytes) : (ofBytes bytes).size = bytes.length := by
  rw [← length_bytes, bytes_ofBytes]

@[simp] theorem bytes_empty : empty.bytes = [] := rfl

@[simp] theorem bytes_append (front back : Image) : (front ++ back).bytes = front.bytes ++ back.bytes := by
  show (front.data ++ back.data).data.toList = _
  simp [bytes]

@[simp] theorem size_append (front back : Image) : (front ++ back).size = front.size + back.size := by
  simp [← length_bytes]

theorem slice_eq (image : Image) (start length : Nat) : image.slice start length = image.bytes.slice start length := by
  rw [slice, ByteArray.data_extract, Array.toList_extract, List.extract, Bytes.slice]
  show (image.bytes.drop _).take _ = _
  by_cases inside : start ≤ image.size
  · rw [Nat.min_eq_left inside]
    by_cases fits : start + length ≤ image.size
    · rw [Nat.min_eq_left fits, Nat.add_sub_cancel_left]
    · rw [Nat.min_eq_right (by omega), List.take_of_length_le (by simp [length_bytes]),
        List.take_of_length_le (by rw [List.length_drop, length_bytes]; omega)]
  · rw [List.drop_of_length_le (by rw [length_bytes]; omega), List.drop_of_length_le (by rw [length_bytes]; omega)]
    simp

@[simp] theorem bytes_take (image : Image) (size : Nat) : (image.take size).bytes = image.bytes.take size := by
  show (image.data.extract 0 (min size image.size)).data.toList = _
  rw [ByteArray.data_extract, Array.toList_extract, List.extract]
  show (image.bytes.drop 0).take (min size image.size - 0) = _
  rw [← length_bytes, List.drop_zero, Nat.sub_zero, ← List.take_eq_take_min]

@[simp] theorem bytes_withRoom (room : Nat) : (withRoom room).bytes = [] := rfl

theorem bytes_appendTimes_zeros (length count : Nat) (image : Image) :
    (appendTimes (ofBytes (Bytes.zeros length)) count image).bytes = image.bytes ++ Bytes.zeros (length * count) := by
  induction count generalizing image with
  | zero => simp [appendTimes, Bytes.zeros]
  | succ count ih =>
    simp only [appendTimes, ih, bytes_append, bytes_ofBytes, List.append_assoc]
    simp only [Bytes.zeros, List.replicate_append_replicate]
    rw [Nat.mul_succ, Nat.add_comm]

@[simp] theorem bytes_extend (image : Image) (count : Nat) :
    (image.extend count).bytes = image.bytes ++ Bytes.zeros count := by
  simp only [extend, bytes_append, bytes_appendTimes_zeros, bytes_ofBytes, List.append_assoc]
  simp only [Bytes.zeros, List.replicate_append_replicate, Nat.div_add_mod]

end Image
end CheckpointStore
