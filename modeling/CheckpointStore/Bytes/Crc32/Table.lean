import CheckpointStore.Bytes.Crc32

/-!
# CRC-32 by table

The step of the check for a whole byte at once. Shifting is linear, so what a register becomes is
what its low byte becomes alone, which a table holds, and the rest moved down. Main statement: the
step by table is the step bit by bit.
-/

namespace CheckpointStore.Crc32

theorem low_bit (register : UInt32) : register &&& 1 = 0 ∨ register &&& 1 = 1 := by
  have low : (register &&& 1).toNat = register.toNat % 2 := by simp [UInt32.toNat_and, Nat.and_one_is_mod]
  rcases Nat.mod_two_eq_zero_or_one register.toNat with even | odd
  · exact .inl (UInt32.toNat_inj.mp (low.trans even))
  · exact .inr (UInt32.toNat_inj.mp (low.trans odd))

theorem shift_of_even {register : UInt32} (even : register &&& 1 = 0) : shift register = register >>> 1 := by
  rw [shift, even, if_neg (by decide)]

theorem shift_of_odd {register : UInt32} (odd : register &&& 1 = 1) :
    shift register = (register >>> 1) ^^^ polynomial := by
  rw [shift, odd, if_pos rfl]

theorem shift_xor (a b : UInt32) : shift (a ^^^ b) = shift a ^^^ shift b := by
  have low : (a ^^^ b) &&& 1 = (a &&& 1) ^^^ (b &&& 1) := by
    apply UInt32.toBitVec_inj.mp
    ext i
    simp [Bool.and_xor_distrib_right]
  have half : (a ^^^ b) >>> 1 = (a >>> 1) ^^^ (b >>> 1) := UInt32.shiftRight_xor
  rcases low_bit a with ha | ha <;> rcases low_bit b with hb | hb <;> rw [ha, hb] at low
  · rw [shift_of_even low, shift_of_even ha, shift_of_even hb, half]
  · rw [shift_of_odd low, shift_of_even ha, shift_of_odd hb, half, UInt32.xor_assoc]
  · rw [shift_of_odd low, shift_of_odd ha, shift_of_even hb, half, UInt32.xor_assoc, UInt32.xor_assoc,
      UInt32.xor_comm polynomial]
  · rw [shift_of_even low, shift_of_odd ha, shift_of_odd hb, half, UInt32.xor_comm (b >>> 1) polynomial,
      UInt32.xor_assoc, ← UInt32.xor_assoc polynomial, UInt32.xor_self, UInt32.zero_xor]

theorem toNat_shift_of_even (register : UInt32) (even : register.toNat % 2 = 0) :
    (shift register).toNat = register.toNat / 2 := by
  have low : register &&& 1 = 0 :=
    UInt32.toNat_inj.mp (by simp [UInt32.toNat_and, Nat.and_one_is_mod, even])
  simp [shift_of_even low, UInt32.toNat_shiftRight, Nat.shiftRight_eq_div_pow]

theorem shiftByte_xor (a b : UInt32) : shiftByte (a ^^^ b) = shiftByte a ^^^ shiftByte b := by
  simp [shiftByte, shift_xor]

theorem toNat_shiftByte_of_low_zero (register : UInt32) (zero : register.toNat % 256 = 0) :
    (shiftByte register).toNat = register.toNat / 256 := by
  have once := toNat_shift_of_even register (by omega)
  have twice := toNat_shift_of_even (shift register) (by omega)
  have third := toNat_shift_of_even (shift (shift register)) (by omega)
  have fourth := toNat_shift_of_even (shift (shift (shift register))) (by omega)
  have fifth := toNat_shift_of_even (shift (shift (shift (shift register)))) (by omega)
  have sixth := toNat_shift_of_even (shift (shift (shift (shift (shift register))))) (by omega)
  have seventh := toNat_shift_of_even (shift (shift (shift (shift (shift (shift register)))))) (by omega)
  have eighth := toNat_shift_of_even (shift (shift (shift (shift (shift (shift (shift register))))))) (by omega)
  rw [shiftByte]
  omega

/-- The low byte alone decides what is subtracted; the bytes above it only move down. -/
theorem shiftByte_eq (register : UInt32) :
    shiftByte register = shiftByte (register &&& 255) ^^^ (register >>> 8) := by
  have parts : register = (register &&& (255 : UInt32)) ^^^ ((register >>> (8 : UInt32)) <<< (8 : UInt32)) := by
    have mask (i : Nat) : Nat.testBit 255 i = decide (i < 8) := Nat.testBit_two_pow_sub_one 8 i
    have small : register.toNat >>> 8 <<< 8 < 4294967296 := by
      have := register.toNat_lt
      rw [Nat.shiftRight_eq_div_pow, Nat.shiftLeft_eq]
      omega
    apply UInt32.toNat_inj.mp
    apply Nat.eq_of_testBit_eq
    intro i
    by_cases low : i < 8
    · simp [mask, low, Nat.mod_eq_of_lt small, Nat.not_le_of_lt low]
    · have back : 8 + (i - 8) = i := by omega
      simp [mask, low, Nat.mod_eq_of_lt small, Nat.le_of_not_lt low, back]
  have high : shiftByte ((register >>> 8) <<< 8) = register >>> 8 := by
    have := register.toNat_lt
    have start : ((register >>> 8) <<< 8).toNat = register.toNat / 256 * 256 := by
      simp [UInt32.toNat_shiftLeft, UInt32.toNat_shiftRight, Nat.shiftRight_eq_div_pow, Nat.shiftLeft_eq]
      omega
    apply UInt32.toNat_inj.mp
    rw [toNat_shiftByte_of_low_zero _ (by omega)]
    simp [start, UInt32.toNat_shiftRight, Nat.shiftRight_eq_div_pow]
  have sum := shiftByte_xor (register &&& 255) ((register >>> 8) <<< 8)
  rw [← parts, high] at sum
  exact sum

/-- What the eight bits of each byte make of a register that holds nothing else. -/
def table : Array UInt32 := Array.ofFn fun byte : Fin 256 => shiftByte (UInt32.ofNat byte)

/-- The register after all eight bits of `byte`, by one look into the table. -/
def absorbByTable (register : UInt32) (byte : UInt8) : UInt32 :=
  let mixed := register ^^^ byte.toUInt32
  table.getD (mixed &&& 255).toNat 0 ^^^ (mixed >>> 8)

theorem absorbByTable_eq (register : UInt32) (byte : UInt8) : absorbByTable register byte = absorb register byte := by
  have inside : ((register ^^^ byte.toUInt32) &&& 255).toNat < 256 := by
    rw [UInt32.toNat_and]
    exact Nat.lt_of_le_of_lt Nat.and_le_right (by decide)
  have found : table.getD ((register ^^^ byte.toUInt32) &&& 255).toNat 0
      = shiftByte ((register ^^^ byte.toUInt32) &&& 255) := by
    rw [Array.getD_eq_getD_getElem?, table, Array.getElem?_ofFn, dif_pos inside]
    simp
  rw [absorbByTable, found, ← shiftByte_eq]
  rfl

end CheckpointStore.Crc32
