import Mathlib
import CheckpointStore.Json.Editable
import CheckpointStore.Proofs.Texts

/-!
# Documents written anew

Of the texts that are read as one value, the one that the value is written as is the normal form:
reading and writing takes every other one to it, and leaves it as it is. So two texts are written anew
alike when they are read alike. All of this is for values without doubles.
-/

namespace CheckpointStore
namespace Value

open Json

/-- The text of the value that a text is read as. -/
def recode (bytes : Bytes) : Except DecodeError Bytes := (decode bytes).map encode

variable {bytes : Bytes} {value : Value}

theorem decode_ok_iff : decode bytes = .ok value ↔ ∃ text, bytes.toString? = some text ∧ parse? text = some value := by
  unfold decode
  cases parsed : bytes.toString?.bind parse? with
  | none =>
    refine ⟨nofun, fun ⟨text, read, found⟩ => ?_⟩
    rw [read, Option.bind_some, found] at parsed
    contradiction
  | some other =>
    obtain ⟨text, read, found⟩ := Option.bind_eq_some_iff.mp parsed
    constructor
    · intro same
      exact ⟨text, read, found.trans (congrArg some (Except.ok.inj same))⟩
    · rintro ⟨again, reread, refound⟩
      obtain rfl := Option.some.inj (read.symm.trans reread)
      exact congrArg Except.ok (Option.some.inj (found.symm.trans refound))

theorem depth_of_decode (decoded : decode bytes = .ok value) : value.depth ≤ maxNesting := by
  obtain ⟨text, -, parsed⟩ := decode_ok_iff.mp decoded
  exact depth_of_parse parsed

theorem recode_of_decode (decoded : decode bytes = .ok value) : recode bytes = .ok value.encode := by
  rw [recode, decoded]
  rfl

/-- A value without doubles is read from its own text exactly when it is nested within the limit. -/
theorem decode_encode_iff (regular : value.Regular) (integral : value.doubles = []) :
    decode value.encode = .ok value ↔ value.depth ≤ maxNesting := by
  have back : ∀ x ∈ value.doubles, ReadsBack x := by
    rw [integral]
    exact nofun
  rw [decode_encode regular back]
  split
  · rename_i shallow
    exact ⟨fun _ => shallow, fun _ => rfl⟩
  · rename_i deep
    exact ⟨nofun, fun shallow => absurd shallow deep⟩

theorem decode_encode_of_decode (decoded : decode bytes = .ok value) (integral : value.doubles = []) :
    decode value.encode = .ok value :=
  (decode_encode_iff (regular_of_decode decoded) integral).mpr (depth_of_decode decoded)

/-- Texts that are read as values without doubles are written anew alike only when they are read alike. -/
theorem recode_eq_iff {other : Bytes} {second : Value} (decoded : decode bytes = .ok value) (integral : value.doubles = [])
    (redecoded : decode other = .ok second) (whole : second.doubles = []) : recode other = recode bytes ↔ second = value := by
  rw [recode_of_decode decoded, recode_of_decode redecoded]
  refine ⟨fun same => ?_, fun same => by rw [same]⟩
  have written : second.encode = value.encode := Except.ok.inj same
  have first := decode_encode_of_decode redecoded whole
  rw [written, decode_encode_of_decode decoded integral] at first
  exact (Except.ok.inj first).symm

theorem ofBytes_ok_iff {document : EditableDocument} :
    EditableDocument.ofBytes bytes = .ok document ↔ ∃ fields, decode bytes = .ok (.object fields) ∧ document = ⟨fields, false⟩ := by
  unfold EditableDocument.ofBytes
  cases decode bytes with
  | error error => exact ⟨nofun, fun ⟨fields, decoded, _⟩ => nomatch decoded⟩
  | ok value =>
    cases value with
    | object fields =>
      constructor
      · intro same
        exact ⟨fields, rfl, (Except.ok.inj same).symm⟩
      · rintro ⟨others, same, rfl⟩
        obtain rfl := Value.object.inj (Except.ok.inj same)
        rfl
    | _ => exact ⟨nofun, fun ⟨fields, decoded, _⟩ => nomatch decoded⟩

/-- A regular value without doubles is read from its own text if it is nested within the limit, and only
then. Whatever text such a value was read from, its own text is what that is written anew as, is read as
the value again, and is left as it is by reading and writing; other texts come to it only if they are read
as the same value. An object that is taken for edits is written and taken alike. -/
theorem recoding_normalises :
    (∀ value : Value, value.Regular → value.doubles = [] → (decode value.encode = .ok value ↔ value.depth ≤ maxNesting)) ∧
      ∀ (bytes : Bytes) (value : Value), decode bytes = .ok value → value.doubles = [] →
        decode value.encode = .ok value ∧ recode bytes = .ok value.encode ∧ recode value.encode = .ok value.encode ∧
          (∀ (other : Bytes) (second : Value), decode other = .ok second → second.doubles = [] →
            (recode other = recode bytes ↔ second = value)) ∧
          ∀ document, EditableDocument.ofBytes bytes = .ok document →
            document.value = value ∧ EditableDocument.ofBytes document.encode = .ok document := by
  refine ⟨fun value regular integral => decode_encode_iff regular integral, fun bytes value decoded integral => ?_⟩
  have again := decode_encode_of_decode decoded integral
  refine ⟨again, recode_of_decode decoded, recode_of_decode again,
    fun other second redecoded whole => recode_eq_iff decoded integral redecoded whole, fun document taken => ?_⟩
  obtain ⟨fields, object, rfl⟩ := ofBytes_ok_iff.mp taken
  obtain rfl := Except.ok.inj (decoded.symm.trans object)
  exact ⟨rfl, ofBytes_ok_iff.mpr ⟨fields, again, rfl⟩⟩

/-- Blanks, a line break, a key that comes twice, keys out of order and escapes, a surrogate pair among
them, are gone once the text is written anew. -/
theorem recoding_of_spaced_text :
    ∃ value : Value,
      decode (Bytes.ofString "\x7b \"b\" : [ 0 ],\n\"b\":\"\\ud83d\\ude00\\u0041\",\"a\":-2\x7d") = .ok value ∧
        value.Regular ∧ value.doubles = [] ∧ decode value.encode = .ok value ∧
        recode (Bytes.ofString "\x7b \"b\" : [ 0 ],\n\"b\":\"\\ud83d\\ude00\\u0041\",\"a\":-2\x7d")
          = .ok (Bytes.ofString "\x7b\"a\":-2,\"b\":\"😀A\"\x7d") ∧
        recode (Bytes.ofString "\x7b\"a\":-2,\"b\":\"😀A\"\x7d") = .ok (Bytes.ofString "\x7b\"a\":-2,\"b\":\"😀A\"\x7d") := by
  have parsed : parse? "\x7b \"b\" : [ 0 ],\n\"b\":\"\\ud83d\\ude00\\u0041\",\"a\":-2\x7d"
      = some (.object [("a", .integer (-2)), ("b", .string "😀A")]) := by cbv
  have decoded := decode_of_parse parsed
  have integral : doubles (.object [("a", .integer (-2)), ("b", .string "😀A")]) = [] := by cbv
  have text : Value.text (.object [("a", .integer (-2)), ("b", .string "😀A")]) = "\x7b\"a\":-2,\"b\":\"😀A\"\x7d" := by cbv
  obtain ⟨again, anew, settled, -⟩ := recoding_normalises.2 _ _ decoded integral
  have shallow := (recoding_normalises.1 _ (regular_of_decode decoded) integral).mp again
  rw [encode, text] at anew settled
  exact ⟨_, decoded, regular_of_decode decoded, integral, again, anew, settled⟩

end Value
end CheckpointStore
