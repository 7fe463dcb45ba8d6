import CheckpointStore.Bytes.Basic

/-!
# Hexadecimal text

Lower-case hexadecimal: two digits for a byte, eight for a checksum.
-/

namespace CheckpointStore.Hex

def digit (n : Nat) : Char := Char.ofNat (if n < 10 then n + 48 else n + 87)

/-- Exactly `width` digits, most significant first, from the low end of `n`. -/
def digits : Nat → Nat → List Char
  | 0, _ => []
  | width + 1, n => digits width (n / 16) ++ [digit (n % 16)]

def word (value : UInt32) : String := String.ofList (digits 8 value.toNat)

def text (bytes : Bytes) : String := String.ofList (bytes.flatMap fun byte => digits 2 byte.toNat)

end CheckpointStore.Hex
