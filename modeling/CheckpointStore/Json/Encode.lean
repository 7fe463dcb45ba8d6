import CheckpointStore.Bytes.Basic
import CheckpointStore.Bytes.Hex
import CheckpointStore.Json.Decimal
import CheckpointStore.Json.Value

/-!
# Writing documents

The compact text of a document: no blanks, fields in key order, the fewest digits for a double.
Of the characters only quotes, backslashes and controls are escaped.
-/

namespace CheckpointStore

namespace Json

def escape (c : Char) : List Char :=
  if c = '"' then ['\\', '"']
  else if c = '\\' then ['\\', '\\']
  else if c = '\x08' then ['\\', 'b']
  else if c = '\x0c' then ['\\', 'f']
  else if c = '\n' then ['\\', 'n']
  else if c = '\r' then ['\\', 'r']
  else if c = '\t' then ['\\', 't']
  else if c < ' ' then ['\\', 'u'] ++ Hex.digits 4 c.toNat
  else [c]

def quote (text : String) : List Char := '"' :: text.toList.flatMap escape ++ ['"']

def writeNat (n : Nat) : List Char := Nat.toDigits 10 n

def writeInt (n : Int) : List Char := if n < 0 then '-' :: writeNat n.natAbs else writeNat n.natAbs

/-- Digits whose first has the given power of ten: positional from `10 ^ -5` to `10 ^ 15`, with at
least one digit behind the point, and in scientific form outside of that. -/
def writeScientific (digits : List Char) (exponent : Int) : List Char :=
  if -5 ≤ exponent ∧ exponent < 0 then
    ['0', '.'] ++ List.replicate (exponent.natAbs - 1) '0' ++ digits
  else if 0 ≤ exponent ∧ exponent ≤ 15 then
    let whole := exponent.toNat + 1
    let fraction := digits.drop whole
    digits.take whole ++ List.replicate (whole - digits.length) '0' ++ ['.']
      ++ (if fraction.isEmpty then ['0'] else fraction)
  else
    digits.take 1 ++ (if digits.length ≤ 1 then [] else '.' :: digits.drop 1) ++ ['e']
      ++ (if exponent < 0 then '-' else '+') :: writeNat exponent.natAbs

def writeFloat (x : Binary64) : List Char :=
  (if x.negative then ['-'] else []) ++
    (if x.magnitude = 0 then ['0', '.', '0']
     else
      let (digits, exponent) := (Decimal.shortest x.magnitude).scientific
      writeScientific digits exponent)

def enclose (left right : Char) (parts : List (List Char)) : List Char :=
  left :: List.intercalate [','] parts ++ [right]

end Json

def Value.chars : Value → List Char
  | .null => "null".toList
  | .bool true => "true".toList
  | .bool false => "false".toList
  | .integer n => Json.writeInt n
  | .float x => Json.writeFloat x
  | .string text => Json.quote text
  | .array items => Json.enclose '[' ']' (items.attach.map fun ⟨item, _⟩ => item.chars)
  | .object fields =>
    Json.enclose '\x7b' '\x7d' (fields.attach.map fun ⟨(key, value), _⟩ => Json.quote key ++ ':' :: value.chars)
termination_by value => sizeOf value
decreasing_by
  all_goals simp_wf
  · have := List.sizeOf_lt_of_mem ‹_›
    omega
  · have inside := List.sizeOf_lt_of_mem ‹_›
    simp at inside
    omega

def Value.text (value : Value) : String := String.ofList value.chars

def Value.encode (value : Value) : Bytes := Bytes.ofString value.text

end CheckpointStore
