import CheckpointStore.Json.Binary64

/-!
# Shortest decimals

The decimal with the fewest digits among those that a double stands nearest to, and among these
the one closest to the double, a tie going to the even digit.
-/

namespace CheckpointStore

/-- A decimal: a coefficient times a power of ten. -/
structure Decimal where
  coefficient : Nat
  exponent : Int
  deriving DecidableEq, Repr

namespace Decimal

def unit (exponent : Int) : Nat × Nat := (Nat.pow 10 exponent.toNat, Nat.pow 10 (-exponent).toNat)

/-- Whether `coefficient * 10 ^ exponent`, for `power` the unit of `exponent`, rounds to the
magnitude: it lies between the midpoints to the neighbours, which count when the significand is
even. All three are in quarters of the spacing of doubles at the magnitude. -/
def roundsTo (magnitude coefficient : Nat) (power : Nat × Nat) : Bool :=
  let significand := Binary64.significand magnitude
  let scale := Binary64.scale magnitude
  let value := (coefficient * power.1) <<< (1076 - scale)
  let unit := power.2 <<< (scale - 1076)
  let high := (4 * significand + 2) * unit
  let narrow := significand == Binary64.hiddenBit && scale != 0
  let low := (4 * significand - (if narrow then 1 else 2)) * unit
  if significand % 2 == 0 then low ≤ value && value ≤ high else low < value && value < high

/-- The nearest decimal on the grid of one power of ten that rounds to the magnitude. -/
def onGrid? (magnitude : Nat) (exponent : Int) : Option Nat :=
  let power := unit exponent
  let (top, bottom) := Binary64.ratio magnitude
  let numerator := top * power.2
  let denominator := bottom * power.1
  let below := numerator / denominator
  let nearest := Binary64.roundDiv numerator denominator
  let other := if nearest = below then below + 1 else below
  if roundsTo magnitude nearest power then some nearest
  else if roundsTo magnitude other power then some other
  else none

/-- The first grid with a decimal that rounds to the magnitude, from `exponent` downward. -/
def search (magnitude : Nat) : Nat → Int → Decimal
  | 0, exponent => ⟨(onGrid? magnitude exponent).getD 0, exponent⟩
  | tries + 1, exponent =>
    match onGrid? magnitude exponent with
    | some coefficient => ⟨coefficient, exponent⟩
    | none => search magnitude tries (exponent - 1)

def reaches (numerator denominator : Nat) (exponent : Int) : Bool :=
  denominator * (unit exponent).1 ≤ numerator * (unit exponent).2

/-- The exponent of the leading digit of a positive quotient between `10 ^ -400` and `10 ^ 400`. The
binary exponent times 1233 / 4096, which is close to the logarithm of two, is at most one off. -/
def leadingExponent (numerator denominator : Nat) : Int :=
  let guess := Binary64.floorLog2 numerator denominator * 1233 / 4096
  if reaches numerator denominator (guess + 1) then guess + 1
  else if reaches numerator denominator guess then guess
  else guess - 1

def shortest (magnitude : Nat) : Decimal :=
  let (top, bottom) := Binary64.ratio magnitude
  search magnitude 17 (leadingExponent top bottom)

/-- The decimal's significant digits without zeros at the end, and the exponent of the first. -/
def scientific (decimal : Decimal) : List Char × Int :=
  let digits := Nat.toDigits 10 decimal.coefficient
  let kept := (digits.reverse.dropWhile (· == '0')).reverse
  (kept, decimal.exponent + (digits.length - 1 : Nat))

end Decimal
end CheckpointStore
