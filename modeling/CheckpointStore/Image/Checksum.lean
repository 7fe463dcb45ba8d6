import CheckpointStore.Bytes.Crc32.Table
import CheckpointStore.Image.Basic

/-!
# The checksum of an image

Taken over the packed bytes and by table, so that large files can be told apart quickly. Main
statement: it is the checksum of the list of bytes.
-/

namespace CheckpointStore.Image

def checksum (image : Image) : UInt32 := image.data.foldl Crc32.absorbByTable 0xFFFFFFFF ^^^ 0xFFFFFFFF

/-- A walk over packed bytes from an offset is the walk over the list behind it. -/
theorem foldlM_loop_eq {β : Type} (step : β → UInt8 → β) (data : ByteArray) (left offset : Nat) (state : β)
    (reach : left + offset = data.size) :
    ByteArray.foldlM.loop (fun state byte => (pure (step state byte) : Id β)) data data.size (Nat.le_refl _) left offset state
      = (pure ((data.data.toList.drop offset).foldl step state) : Id β) := by
  induction left generalizing offset state with
  | zero =>
    have stop : ¬ offset < data.size := by omega
    rw [ByteArray.foldlM.loop, dif_neg stop, List.drop_of_length_le (by simp; omega)]
    rfl
  | succ left ih =>
    have more : offset < data.size := by omega
    have inside : offset < data.data.toList.length := by simpa using more
    rw [ByteArray.foldlM.loop, dif_pos more]
    simp only [pure_bind]
    rw [ih _ _ (by omega), List.drop_eq_getElem_cons inside]
    rfl

theorem foldl_eq {β : Type} (step : β → UInt8 → β) (data : ByteArray) (state : β) :
    data.foldl step state = data.data.toList.foldl step state := by
  rw [ByteArray.foldl, ByteArray.foldlM]
  simp only [Nat.le_refl, dite_true, Nat.sub_zero]
  rw [foldlM_loop_eq step data data.size 0 state rfl]
  rfl

theorem checksum_eq (image : Image) : image.checksum = Crc32.checksum image.bytes := by
  have step : Crc32.absorbByTable = Crc32.absorb := funext fun register => funext (Crc32.absorbByTable_eq register)
  rw [checksum, foldl_eq, step]
  rfl

end CheckpointStore.Image
