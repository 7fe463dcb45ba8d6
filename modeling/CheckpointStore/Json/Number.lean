import CheckpointStore.Json.Token
import CheckpointStore.Json.Value

/-!
# Numbers of JSON texts

Whole numbers within 64 bits are integers; all other numbers are doubles. A double is read from
as many leading digits as fit in 64 bits: these are converted and then multiplied or divided once
by a power of ten, with a rounding at each step, so long texts need not give the nearest double.
-/

namespace CheckpointStore.Json.NumberText

def limit : Nat := 18446744073709551616

/-- The number that digits spell, or `limit` when they spell more than that. -/
def natOfDigits (digits : List Nat) : Nat := digits.foldl (fun n digit => min limit (n * 10 + digit)) 0

/-- The digits before the point: as many as fit, and the number of those left out. -/
def readWhole : List Nat → Nat → Nat × Nat
  | [], significand => (significand, 0)
  | digit :: rest, significand =>
    if significand * 10 + digit < limit then readWhole rest (significand * 10 + digit)
    else (significand, rest.length + 1)

/-- The digits after the point: as many as fit behind `significand`, and their number. -/
def readFraction : List Nat → Nat → Nat → Nat × Nat
  | [], significand, count => (significand, count)
  | digit :: rest, significand, count =>
    if significand * 10 + digit < limit then readFraction rest (significand * 10 + digit) (count + 1)
    else (significand, count)

/-- A magnitude divided by `10 ^ places`, in steps of at most 308 places. -/
def scaleDown (magnitude places : Nat) : Nat :=
  if places ≤ 308 then Binary64.div magnitude (Binary64.powerOfTen places)
  else if magnitude = 0 then 0
  else scaleDown (Binary64.div magnitude (Binary64.powerOfTen 308)) (places - 308)
termination_by places

/-- A magnitude multiplied by `10 ^ places`, unless the product is out of range. -/
def scaleUp? (magnitude places : Nat) : Option Nat :=
  if places ≤ 308 then
    let product := Binary64.mul magnitude (Binary64.powerOfTen places)
    if Binary64.infinity ≤ product then none else some product
  else if magnitude = 0 then some 0
  else none

/-- The magnitude of `significand * 10 ^ exponent`, unless it is out of range. -/
def magnitude? (significand : Nat) (exponent : Int) : Option Nat :=
  let start := Binary64.ofNat significand
  if exponent < 0 then some (scaleDown start exponent.natAbs) else scaleUp? start exponent.toNat

def writtenExponent (text : NumberText) : Int :=
  match text.exponent with
  | none => 0
  | some (true, digits) => - (natOfDigits digits : Int)
  | some (false, digits) => natOfDigits digits

/-- The double that the text stands for, unless it is out of range. -/
def float? (text : NumberText) : Option Binary64 :=
  let (significand, skipped) := readWhole text.whole 0
  let (significand, taken) := readFraction text.fraction significand 0
  (magnitude? significand (skipped - taken + text.writtenExponent)).map (⟨text.negative, ·⟩)

/-- The value that the text stands for. Zero with a minus sign is a double, as no integer is. -/
def value? (text : NumberText) : Option Value :=
  let whole := natOfDigits text.whole
  if text.fraction = [] ∧ text.exponent = none ∧ text.negative = false ∧ whole < limit then some (.integer whole)
  else if text.fraction = [] ∧ text.exponent = none ∧ text.negative = true ∧ 0 < whole ∧ whole ≤ limit / 2 then
    some (.integer (- (whole : Int)))
  else text.float?.map .float

end CheckpointStore.Json.NumberText
