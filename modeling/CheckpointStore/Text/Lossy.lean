import CheckpointStore.Bytes.Basic

/-!
# Lossy UTF-8

The text of arbitrary bytes: what is not UTF-8 is replaced by U+FFFD, one for each longest run of
bytes that begins a character but does not finish it, and one for every other stray byte.
-/

namespace CheckpointStore.Lossy

/-- The least and greatest second byte that may follow a first byte of a longer character, and the
number of bytes still to come after the first. -/
def follow? (first : UInt8) : Option (UInt8 × UInt8 × Nat) :=
  if 0xC2 ≤ first ∧ first ≤ 0xDF then some (0x80, 0xBF, 1)
  else if first = 0xE0 then some (0xA0, 0xBF, 2)
  else if 0xE1 ≤ first ∧ first ≤ 0xEC then some (0x80, 0xBF, 2)
  else if first = 0xED then some (0x80, 0x9F, 2)
  else if 0xEE ≤ first ∧ first ≤ 0xEF then some (0x80, 0xBF, 2)
  else if first = 0xF0 then some (0x90, 0xBF, 3)
  else if 0xF1 ≤ first ∧ first ≤ 0xF3 then some (0x80, 0xBF, 3)
  else if first = 0xF4 then some (0x80, 0x8F, 3)
  else none

def lead (first : UInt8) (more : Nat) : Nat := first.toNat % (1 <<< (6 - more))

/-- What has been read of a character: the range of its next byte, the number of bytes to come, and
the bits so far. -/
structure Partial where
  low : UInt8
  high : UInt8
  more : Nat
  bits : Nat

def replacement : Char := '\uFFFD'

/-- Reads a byte between characters; the characters so far are reversed. -/
def first (read : List Char) (byte : UInt8) : List Char × Option Partial :=
  if byte < 0x80 then (Char.ofNat byte.toNat :: read, none)
  else
    match follow? byte with
    | some (low, high, more) => (read, some ⟨low, high, more, lead byte more⟩)
    | none => (replacement :: read, none)

/-- Reads a byte. One that cannot continue the character begun leaves a replacement for what was
read of it, and is then read anew. -/
def step : List Char × Option Partial → UInt8 → List Char × Option Partial
  | (read, none), byte => first read byte
  | (read, some part), byte =>
    if part.low ≤ byte ∧ byte ≤ part.high then
      let bits := part.bits * 64 + byte.toNat % 64
      if part.more = 1 then (Char.ofNat bits :: read, none)
      else (read, some ⟨0x80, 0xBF, part.more - 1, bits⟩)
    else first (replacement :: read) byte

/-- The text of bytes, with replacements for what is not UTF-8. -/
def decode (bytes : Bytes) : String :=
  match bytes.foldl step ([], none) with
  | (read, none) => String.ofList read.reverse
  | (read, some _) => String.ofList (replacement :: read).reverse

end CheckpointStore.Lossy
