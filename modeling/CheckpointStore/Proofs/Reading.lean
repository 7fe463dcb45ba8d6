import CheckpointStore.Image.Basic
import CheckpointStore.Proofs.Words

/-!
# Reading bytes

How slices of byte strings and of images compose, what is read where a word was written, and what
two images with a common beginning have in common.
-/

namespace CheckpointStore

/-- A check is passed by what succeeds after it. -/
theorem check_ok_iff {ε α : Type} {failed : Prop} [Decidable failed] {error : ε} {rest : Except ε α} {value : α} :
    (if failed then .error error else rest) = .ok value ↔ ¬ failed ∧ rest = .ok value := by
  split
  · rename_i yes
    simp [yes]
  · rename_i no
    simp [no]

namespace Bytes

theorem slice_append_of_le {a b : Bytes} {start length : Nat} (inside : start + length ≤ a.length) :
    slice (a ++ b) start length = slice a start length := by
  unfold slice
  rw [List.drop_append_of_le_length (by omega), List.take_append_of_le_length (by simp; omega)]

theorem slice_append_right (a b : Bytes) (start length : Nat) :
    slice (a ++ b) (a.length + start) length = slice b start length := by
  unfold slice
  rw [← List.drop_drop, List.drop_left]

theorem slice_slice {bytes : Bytes} {start length inner count : Nat} (inside : inner + count ≤ length) :
    slice (slice bytes start length) inner count = slice bytes (start + inner) count := by
  unfold slice
  rw [List.drop_take, List.take_take, List.drop_drop, Nat.min_eq_left (by omega)]

@[simp] theorem slice_zero (bytes : Bytes) (start : Nat) : slice bytes start 0 = [] := List.take_zero

theorem slice_from_zero (bytes : Bytes) (length : Nat) : slice bytes 0 length = bytes.take length := rfl

theorem slice_append_slice (bytes : Bytes) (start front back : Nat) :
    slice bytes start front ++ slice bytes (start + front) back = slice bytes start (front + back) := by
  unfold slice
  rw [← List.drop_drop, List.take_add]

theorem take_append_slice (bytes : Bytes) (front back : Nat) :
    bytes.take front ++ slice bytes front back = bytes.take (front + back) := by
  have joined := slice_append_slice bytes 0 front back
  rwa [slice_from_zero, Nat.zero_add, slice_from_zero] at joined

theorem slice_middle {bytes middle : Bytes} {start length : Nat} (front back : Bytes)
    (split : bytes = front ++ middle ++ back) (before : front.length = start)
    (size : middle.length = length) : slice bytes start length = middle := by
  subst split before size
  have located := slice_append_right front (middle ++ back) 0 middle.length
  rw [List.append_assoc, ← Nat.add_zero front.length, located, slice_from_zero, List.take_left]

theorem getD_of_slice {bytes : Bytes} {start : Nat} {byte : UInt8} (h : slice bytes start 1 = [byte]) :
    bytes.getD start 0 = byte := by
  have first : (bytes.drop start).head? = some byte := by
    unfold slice at h
    cases rest : bytes.drop start with
    | nil => simp [rest] at h
    | cons head tail => simpa [rest] using h
  rw [List.head?_drop] at first
  simp [first]

theorem slice_one (bytes : Bytes) {start : Nat} (inside : start < bytes.length) :
    slice bytes start 1 = [bytes.getD start 0] := by
  unfold slice
  rw [List.drop_eq_getElem_cons inside, List.take_succ_cons, List.take_zero, List.getD_eq_getElem?_getD,
    List.getElem?_eq_getElem inside, Option.getD_some]

end Bytes

namespace LittleEndian

theorem read_middle {bytes : Bytes} {offset width n : Nat} (front back : Bytes)
    (split : bytes = front ++ encode width n ++ back) (before : front.length = offset)
    (fits : n < 256 ^ width) : read bytes offset width = n := by
  unfold read
  rw [Bytes.slice_middle front back split before (length_encode width n), decode_encode_of_lt fits]

theorem encode_read (bytes : Bytes) (offset width : Nat) (inside : offset + width ≤ bytes.length) :
    encode width (read bytes offset width) = bytes.slice offset width := by
  have full : (bytes.slice offset width).length = width := by
    rw [Bytes.length_slice]
    omega
  have back := encode_decode (bytes.slice offset width)
  rwa [full] at back

theorem read_lt (bytes : Bytes) (offset width : Nat) : read bytes offset width < 256 ^ width := by
  have bound := decode_lt (bytes.slice offset width)
  have short : (bytes.slice offset width).length ≤ width := by
    rw [Bytes.length_slice]
    omega
  exact Nat.lt_of_lt_of_le bound (Nat.pow_le_pow_right (by decide) short)

end LittleEndian

namespace Image

theorem length_slice (image : Image) (start length : Nat) :
    (image.slice start length).length = min length (image.size - start) := by
  rw [slice_eq, Bytes.length_slice, length_bytes]

theorem slice_slice (image : Image) {start length inner count : Nat} (inside : inner + count ≤ length) :
    (image.slice start length).slice inner count = image.slice (start + inner) count := by
  rw [slice_eq, slice_eq, Bytes.slice_slice inside]

/-- Two images begin with the same `size` bytes, and both have that many. -/
structure Agree (size : Nat) (a b : Image) : Prop where
  left : size ≤ a.size
  right : size ≤ b.size
  same : a.bytes.take size = b.bytes.take size

theorem Agree.symm {size : Nat} {a b : Image} (h : Agree size a b) : Agree size b a :=
  ⟨h.right, h.left, h.same.symm⟩

theorem Agree.mono {size smaller : Nat} {a b : Image} (h : Agree size a b) (le : smaller ≤ size) :
    Agree smaller a b := by
  refine ⟨Nat.le_trans le h.left, Nat.le_trans le h.right, ?_⟩
  have cut := congrArg (List.take smaller) h.same
  rwa [List.take_take, List.take_take, Nat.min_eq_left le] at cut

theorem exists_append {a b : Image} (begun : a.bytes <+: b.bytes) : ∃ rest, b = a ++ rest := by
  obtain ⟨bytes, split⟩ := begun
  refine ⟨Image.ofBytes bytes, Image.ext ?_⟩
  rw [bytes_append, bytes_ofBytes]
  exact split.symm

theorem agree_append (a b : Image) : Agree a.size a (a ++ b) := by
  refine ⟨Nat.le_refl _, by simp, ?_⟩
  rw [bytes_append, List.take_append_of_le_length (by rw [length_bytes])]

theorem Agree.slice {size start length : Nat} {a b : Image} (h : Agree size a b) (inside : start + length ≤ size) :
    a.slice start length = b.slice start length := by
  have inner : ∀ image : Image, size ≤ image.size →
      image.slice start length = Bytes.slice (image.bytes.take size) start length := by
    intro image long
    have whole : (image.bytes.take size).length = size := by
      rw [List.length_take, length_bytes]
      omega
    rw [slice_eq]
    conv_lhs => rw [← List.take_append_drop size image.bytes]
    rw [Bytes.slice_append_of_le (by omega)]
  rw [inner a h.left, inner b h.right, h.same]

theorem slice_append_right (a b : Image) (start length : Nat) :
    (a ++ b).slice (a.size + start) length = b.slice start length := by
  rw [slice_eq, slice_eq, bytes_append, ← length_bytes a, Bytes.slice_append_right]

end Image
end CheckpointStore
