import CheckpointStore.Bytes.Basic
import CheckpointStore.Json.Number
import CheckpointStore.Json.Tree

/-!
# Reading documents

A document is read from its bytes through tokens and a tree. Here the parts of the tree get their
meaning: surrogate pairs become characters, numbers get their value, and of two fields with one
key the later stays.
-/

namespace CheckpointStore

namespace Json

def isHighSurrogate (code : Nat) : Bool := 0xD800 ≤ code && code < 0xDC00

def isLowSurrogate (code : Nat) : Bool := 0xDC00 ≤ code && code < 0xE000

/-- The characters that pieces spell, behind those in `read`, which are reversed. Surrogates must
come in pairs. -/
def spell? (read : List Char) : List Piece → Option (List Char)
  | [] => some read.reverse
  | .char c :: rest => spell? (c :: read) rest
  | .unit high :: .unit low :: rest =>
    if isHighSurrogate high then
      if isLowSurrogate low then
        spell? (Char.ofNat (0x10000 + (high - 0xD800) * 0x400 + (low - 0xDC00)) :: read) rest
      else none
    else if isLowSurrogate high then none
    else spell? (Char.ofNat high :: read) (.unit low :: rest)
  | .unit code :: rest =>
    if isHighSurrogate code || isLowSurrogate code then none else spell? (Char.ofNat code :: read) rest

def stringOf? (pieces : List Piece) : Option String := (spell? [] pieces).map String.ofList

def Atom.value? : Atom → Option Value
  | .null => some .null
  | .bool value => some (.bool value)
  | .number text => text.value?
  | .string pieces => (stringOf? pieces).map .string

/-- The value of a tree, if all its strings and numbers have one. -/
def Tree.value? : Tree → Option Value
  | .atom value => value.value?
  | .array items => (items.attach.mapM fun ⟨item, _⟩ => item.value? : Option (List Value)).map .array
  | .object members =>
    (members.attach.mapM fun ⟨(key, tree), _⟩ => do
      let key ← stringOf? key
      let value ← tree.value?
      some (key, value) : Option (List (String × Value))).map Value.ofFields
termination_by tree => sizeOf tree
decreasing_by
  all_goals simp_wf
  · have := List.sizeOf_lt_of_mem ‹_›
    omega
  · have inside := List.sizeOf_lt_of_mem ‹_›
    simp at inside
    omega

/-- The most arrays and objects that may be open at once in a document. -/
def maxNesting : Nat := 127

def parse? (text : String) : Option Value := do
  let tokens ← Token.ofText? [] text.toList
  if nesting tokens ≤ maxNesting then (← Tree.ofTokens? tokens).value? else none

end Json

/-- Why bytes are not the document that was asked for. -/
inductive DecodeError where
  | malformed
  /-- The document is a value of another kind than an object -/
  | notADictionary
  deriving DecidableEq, Repr

def DecodeError.text : DecodeError → String
  | .malformed => "document decode failed"
  | .notADictionary => "document is not a dictionary"

def Value.decode (bytes : Bytes) : Except DecodeError Value :=
  match bytes.toString?.bind Json.parse? with
  | some value => .ok value
  | none => .error .malformed

end CheckpointStore
