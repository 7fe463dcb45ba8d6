import CheckpointStore.Bytes.Basic

/-!
# CRC-32

The cyclic redundancy check of IEEE 802.3 in reflected form: register and result are inverted,
bits enter least significant first.
-/

namespace CheckpointStore.Crc32

def polynomial : UInt32 := 0xEDB88320

/-- One bit leaves the register; when it is set the polynomial is subtracted. -/
@[inline] def shift (register : UInt32) : UInt32 :=
  if register &&& 1 = 1 then (register >>> 1) ^^^ polynomial else register >>> 1

/-- The register after the eight bits of its low byte have left it. -/
def shiftByte (register : UInt32) : UInt32 :=
  shift <| shift <| shift <| shift <| shift <| shift <| shift <| shift register

def absorb (register : UInt32) (byte : UInt8) : UInt32 := shiftByte (register ^^^ byte.toUInt32)

def run (register : UInt32) (message : Bytes) : UInt32 := message.foldl absorb register

def checksum (message : Bytes) : UInt32 := run 0xFFFFFFFF message ^^^ 0xFFFFFFFF

theorem run_append (register : UInt32) (front back : Bytes) :
    run register (front ++ back) = run (run register front) back := List.foldl_append

end CheckpointStore.Crc32
