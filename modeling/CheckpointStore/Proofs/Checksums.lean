import CheckpointStore.Bytes.Crc32.Table
import CheckpointStore.Proofs.Reading

/-!
# What a checksum tells apart

Strings of bytes that differ in one byte have different checksums: the register never forgets a
difference. So of two strings that both carry their checksum at the end, one is never the other
with one byte changed.
-/

namespace CheckpointStore

/-! ### The register -/

namespace Crc32

theorem eq_zero_of_shift {register : UInt32} (zero : shift register = 0) : register = 0 := by
  have half : (register >>> 1).toNat = register.toNat / 2 := by
    simp [UInt32.toNat_shiftRight, Nat.shiftRight_eq_div_pow]
  rcases low_bit register with even | odd
  · rw [shift_of_even even] at zero
    rw [zero, UInt32.toNat_zero] at half
    have low : register.toNat % 2 = 0 := by
      have low := congrArg UInt32.toNat even
      simpa [UInt32.toNat_and, Nat.and_one_is_mod] using low
    refine UInt32.toNat_inj.mp ?_
    rw [UInt32.toNat_zero]
    omega
  · -- half a register is below the polynomial, whose highest bit is set
    rw [shift_of_odd odd] at zero
    have same := congrArg UInt32.toNat (UInt32.xor_eq_zero_iff.mp zero)
    rw [half] at same
    have top : polynomial.toNat = 3988292384 := by decide
    have small := register.toNat_lt
    omega

theorem shift_injective {a b : UInt32} (same : shift a = shift b) : a = b := by
  have zero : shift (a ^^^ b) = 0 := by rw [shift_xor, same, UInt32.xor_self]
  exact UInt32.xor_eq_zero_iff.mp (eq_zero_of_shift zero)

theorem shiftByte_injective {a b : UInt32} (same : shiftByte a = shiftByte b) : a = b := by
  unfold shiftByte at same
  iterate 8 replace same := shift_injective same
  exact same

theorem absorb_register_injective {a b : UInt32} {byte : UInt8} (same : absorb a byte = absorb b byte) : a = b :=
  UInt32.xor_left_inj _ |>.mp (shiftByte_injective same)

theorem absorb_byte_injective {register : UInt32} {x y : UInt8} (same : absorb register x = absorb register y) : x = y := by
  have wide := UInt32.xor_right_inj _ |>.mp (shiftByte_injective same)
  refine UInt8.toNat_inj.mp ?_
  have narrow := congrArg UInt32.toNat wide
  simpa using narrow

theorem run_injective {a b : UInt32} {message : Bytes} (same : run a message = run b message) : a = b := by
  induction message generalizing a b with
  | nil => exact same
  | cons byte rest ih => exact absorb_register_injective (ih same)

end Crc32

/-! ### One byte changed -/

namespace Bytes

/-- The strings are the same but for the byte at a position. -/
def DifferAt (a b : Bytes) (position : Nat) : Prop :=
  ∃ front x y back, front.length = position ∧ x ≠ y ∧ a = front ++ x :: back ∧ b = front ++ y :: back

variable {a b : Bytes} {position : Nat}

theorem DifferAt.length_eq (differ : DifferAt a b position) : a.length = b.length := by
  obtain ⟨front, x, y, back, -, -, rfl, rfl⟩ := differ
  simp

theorem DifferAt.lt (differ : DifferAt a b position) : position < a.length := by
  obtain ⟨front, x, y, back, rfl, -, rfl, rfl⟩ := differ
  simp

theorem DifferAt.ne (differ : DifferAt a b position) : a ≠ b := by
  obtain ⟨front, x, y, back, -, different, rfl, rfl⟩ := differ
  simpa using different

/-- A stretch without the position is the same in both strings. -/
theorem DifferAt.slice_eq (differ : DifferAt a b position) {start length : Nat}
    (outside : position < start ∨ start + length ≤ position) : a.slice start length = b.slice start length := by
  obtain ⟨front, x, y, back, rfl, -, rfl, rfl⟩ := differ
  rcases outside with before | behind
  · have cut (byte : UInt8) : Bytes.slice (front ++ byte :: back) start length
        = Bytes.slice back (start - (front.length + 1)) length := by
      have split : front ++ byte :: back = (front ++ [byte]) ++ back := by simp
      have place : start = (front ++ [byte]).length + (start - (front.length + 1)) := by
        rw [List.length_append, List.length_singleton]
        omega
      conv_lhs => rw [split, place]
      exact slice_append_right _ _ _ _
    rw [cut, cut]
  · rw [slice_append_of_le behind, slice_append_of_le behind]

/-- A stretch with the position in it differs there. -/
theorem DifferAt.slice (differ : DifferAt a b position) {start length : Nat} (after : start ≤ position)
    (before : position < start + length) : DifferAt (a.slice start length) (b.slice start length) (position - start) := by
  obtain ⟨front, x, y, back, rfl, different, rfl, rfl⟩ := differ
  have cut (byte : UInt8) : Bytes.slice (front ++ byte :: back) start length
      = front.drop start ++ byte :: back.take (start + length - front.length - 1) := by
    have inner : length - (front.drop start).length = start + length - front.length - 1 + 1 := by
      rw [List.length_drop]
      omega
    unfold Bytes.slice
    rw [List.drop_append_of_le_length after, List.take_append, List.take_of_length_le (by rw [List.length_drop]; omega),
      inner, List.take_succ_cons]
  exact ⟨front.drop start, x, y, back.take (start + length - front.length - 1), List.length_drop, different, cut x, cut y⟩

theorem DifferAt.drop (differ : DifferAt a b position) {count : Nat} (le : count ≤ position) :
    DifferAt (a.drop count) (b.drop count) (position - count) := by
  obtain ⟨front, x, y, back, rfl, different, rfl, rfl⟩ := differ
  refine ⟨front.drop count, x, y, back, List.length_drop, different, ?_, ?_⟩
  · exact List.drop_append_of_le_length le
  · exact List.drop_append_of_le_length le

end Bytes

theorem Crc32.checksum_ne {a b : Bytes} {position : Nat} (differ : Bytes.DifferAt a b position) :
    checksum a ≠ checksum b := by
  obtain ⟨front, x, y, back, -, different, rfl, rfl⟩ := differ
  intro same
  have ran := UInt32.xor_left_inj _ |>.mp same
  rw [run_append, run_append] at ran
  exact different (absorb_byte_injective (run_injective ran))

namespace Bytes

/-- The string with its checksum behind it. -/
def sealed (fields : Bytes) : Bytes := fields ++ LittleEndian.encode 4 (Crc32.checksum fields).toNat

theorem slice_fields_sealed (fields : Bytes) : fields.sealed.slice 0 fields.length = fields := List.take_left

theorem slice_checksum_sealed (fields : Bytes) :
    fields.sealed.slice fields.length 4 = LittleEndian.encode 4 (Crc32.checksum fields).toNat :=
  slice_middle fields [] (by simp [Bytes.sealed]) rfl (LittleEndian.length_encode _ _)

/-- Of two strings with their checksums, one is never the other with one byte changed. -/
theorem sealed_not_differAt {a b : Bytes} {position : Nat} (same : a.length = b.length) :
    ¬ DifferAt a.sealed b.sealed position := by
  intro differ
  rcases Nat.lt_or_ge position a.length with inside | behind
  · -- the checksums stand behind the change, so they are equal, and the strings they are of are not
    have message : DifferAt (a.sealed.slice 0 a.length) (b.sealed.slice 0 a.length) position :=
      differ.slice (Nat.zero_le _) (by omega)
    have check : a.sealed.slice a.length 4 = b.sealed.slice a.length 4 := differ.slice_eq (.inl inside)
    rw [slice_checksum_sealed, same, slice_checksum_sealed] at check
    rw [slice_fields_sealed, same, slice_fields_sealed] at message
    have numbers := congrArg LittleEndian.decode check
    rw [LittleEndian.decode_encode_of_lt (UInt32.toNat_lt _), LittleEndian.decode_encode_of_lt (UInt32.toNat_lt _)] at numbers
    exact Crc32.checksum_ne message (UInt32.toNat_inj.mp numbers)
  · have message : a.sealed.slice 0 a.length = b.sealed.slice 0 a.length := differ.slice_eq (.inr (by omega))
    rw [slice_fields_sealed, same, slice_fields_sealed] at message
    exact differ.ne (congrArg Bytes.sealed message)

end Bytes
end CheckpointStore
