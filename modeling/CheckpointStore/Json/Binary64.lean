/-!
# Binary64 numbers

Finite IEEE 754 doubles as a sign and a magnitude, the 63 bits below the sign bit. Magnitudes are
ordered like the values they stand for. A quotient is rounded to the nearest double, ties to the
even one, and underflow is gradual.
-/

namespace CheckpointStore

/-- A double: its sign and the bits below the sign bit. -/
structure Binary64 where
  negative : Bool
  magnitude : Nat
  deriving DecidableEq, Repr

namespace Binary64

def hiddenBit : Nat := 4503599627370496

def infinity : Nat := 2047 * hiddenBit

/-- The integer significand of a magnitude: its value is this number times a power of two. -/
def significand (magnitude : Nat) : Nat :=
  if magnitude < hiddenBit then magnitude else hiddenBit + magnitude % hiddenBit

/-- How far above the least exponent, -1074, the exponent of a magnitude is. -/
def scale (magnitude : Nat) : Nat := magnitude / hiddenBit - 1

/-- The value of a magnitude as a quotient: numerator and denominator, of which one is free of the
power of two between them. -/
def ratio (magnitude : Nat) : Nat × Nat :=
  (significand magnitude <<< (scale magnitude - 1074), 1 <<< (1074 - scale magnitude))

/-- The quotient rounded to the nearest integer, a tie to the even one. -/
def roundDiv (numerator denominator : Nat) : Nat :=
  let floor := numerator / denominator
  let double := 2 * (numerator % denominator)
  if double < denominator then floor
  else if denominator < double then floor + 1
  else if floor % 2 = 0 then floor else floor + 1

/-- The greatest integer `e` with `2 ^ e` at most the quotient of two positive numbers. -/
def floorLog2 (numerator denominator : Nat) : Int :=
  let up := numerator.log2
  let down := denominator.log2
  let guess : Int := up - down
  if denominator <<< up ≤ numerator <<< down then guess else guess - 1

/-- The magnitude nearest to a quotient; `infinity` or more when the quotient is out of range. -/
def round (numerator denominator : Nat) : Nat :=
  if numerator = 0 then 0
  else
    let steps := (floorLog2 numerator denominator + 1022).toNat
    steps * hiddenBit + roundDiv (numerator <<< (1074 - steps)) (denominator <<< (steps - 1074))

def mul (a b : Nat) : Nat := round ((ratio a).1 * (ratio b).1) ((ratio a).2 * (ratio b).2)

def div (a b : Nat) : Nat := round ((ratio a).1 * (ratio b).2) ((ratio a).2 * (ratio b).1)

def ofNat (n : Nat) : Nat := round n 1

def powerOfTen (exponent : Nat) : Nat := ofNat (Nat.pow 10 exponent)

end Binary64
end CheckpointStore
