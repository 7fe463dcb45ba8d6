import CheckpointStore.Proofs.RoundTrips
import CheckpointStore.Proofs.Tombstones

/-!
# Documents read across a commit

Before a commit a document under edit is read from memory, afterwards from its encoding, and any other
document is read from the same bytes as before. So a commit changes what an edited document reads as
exactly when its encoding does not decode to it.
-/

namespace CheckpointStore

/-! ### Edits -/

/-- The values that the edit puts in are regular. -/
def Edit.Regular : Edit → Prop
  | .set _ value => value.Regular
  | .remove _ => True
  | .modify _ edit => ∀ value, value.Regular → (edit value).Regular

def Operation.Regular : Operation → Prop
  | .edit _ edits => ∀ edit ∈ edits, edit.Regular
  | _ => True

theorem Entries.mem_of_get? {α : Type} {key : String} {value : α} {entries : List (String × α)}
    (found : get? key entries = some value) : (key, value) ∈ entries := by
  induction entries with
  | nil => contradiction
  | cons entry entries ih =>
    obtain ⟨k, old⟩ := entry
    rw [get?] at found
    split at found
    · rename_i same
      rw [same, Option.some.inj found]
      exact List.mem_cons_self
    · exact List.mem_cons_of_mem _ (ih found)

namespace EditableDocument

variable {document : EditableDocument}

theorem regular_insert (regular : document.value.Regular) (field : String) {value : Value} (fits : value.Regular) :
    (Value.object (Entries.insert field value document.fields)).Regular := by
  cases regular with
  | object ascending each => exact .object (Entries.ascending_insert ascending) (Value.regular_insert each fits)

theorem regular_of_get? (regular : document.value.Regular) {field : String} {value : Value}
    (found : document.get? field = some value) : value.Regular := by
  cases regular with
  | object ascending each => exact each _ (Entries.mem_of_get? found)

theorem regular_apply (regular : document.value.Regular) {edit : Edit} (fits : edit.Regular) :
    (edit.apply document).value.Regular := by
  cases edit with
  | set field value => exact regular_insert regular field fits
  | remove field =>
    show (document.remove field).value.Regular
    unfold remove
    split
    · cases regular with
      | object ascending each =>
        exact .object (Entries.ascending_erase ascending) fun entry mem => each entry (List.mem_filter.mp mem).1
    · exact regular
  | modify field edit =>
    show (document.modify field edit).value.Regular
    unfold modify
    split
    · rename_i value found
      exact regular_insert regular field (fits value (regular_of_get? regular found))
    · exact regular

theorem regular_foldl (regular : document.value.Regular) {edits : List Edit} (fits : ∀ edit ∈ edits, edit.Regular) :
    (edits.foldl Edit.apply document).value.Regular := by
  induction edits generalizing document with
  | nil => exact regular
  | cons edit edits ih =>
    exact ih (regular_apply regular (fits edit List.mem_cons_self)) fun other mem => fits other (List.mem_cons_of_mem _ mem)

end EditableDocument

namespace Slot

/-- A document under edit in the slot is regular. -/
def Regular (slot : Slot) : Prop := ∀ document, slot.staged = some (.editable document) → document.value.Regular

variable {slot : Slot}

theorem regular_bare (committed : Option Bytes) : Regular ⟨committed, none⟩ := nofun

theorem Regular.handed (regular : slot.Regular) {document : EditableDocument} (handed : slot.Handed document) :
    document.value.Regular := by
  cases handed with
  | again staged => exact regular document staged
  | put staged read marked =>
    rw [marked]
    exact Value.regular_of_decode (Handle.editableOf_ok_iff.mp read).1
  | committed bare committed read => exact Value.regular_of_decode (Handle.editableOf_ok_iff.mp read).1

theorem Regular.put (regular : slot.Regular) (value : Bytes) (mode : PutMode) : (slot.put value mode).2.Regular := by
  dsimp only [Slot.put]
  split
  · exact nofun
  · exact regular

theorem Regular.act (regular : slot.Regular) {key : Bytes} {operation : KeyOperation} (fits : (operation.on key).Regular) :
    (slot.act operation).2.Regular := by
  cases operation with
  | put value mode => exact regular.put value mode
  | putDocument document mode => exact regular.put document.encode mode
  | remove =>
    dsimp only [Slot.act]
    split
    · split
      · exact nofun
      · exact regular_bare _
    · exact regular
  | edit edits =>
    dsimp only [Slot.act]
    split
    · exact regular
    · exact regular
    · rename_i document taken
      intro edited staged
      obtain rfl := Pending.editable.inj (Option.some.inj staged)
      exact EditableDocument.regular_foldl (regular.handed (handed_of_document? taken)) fits

end Slot

namespace Handle

variable {handle after : Handle} {key : Bytes}

/-- What is staged for a key is regular, and a document that was not changed is the committed one. -/
def Backs (handle : Handle) (key : Bytes) : Pending → Prop
  | .editable document =>
    document.value.Regular ∧
      (document.changed = false → ∃ bytes, handle.committed? key = some bytes ∧ Value.decode bytes = .ok document.value)
  | _ => True

def Faithful (handle : Handle) : Prop := ∀ key pending, handle.staged.get? key = some pending → handle.Backs key pending

theorem faithful_of_regular (regular : ∀ key, (handle.slot key).Regular) (warranted : ∀ key, (handle.slot key).Warranted) :
    handle.Faithful := by
  intro key pending staged
  cases pending with
  | removed => trivial
  | value bytes => trivial
  | editable document => exact ⟨regular key document staged, (warranted key).unchanged document staged⟩

/-! ### Reading documents -/

/-- What bytes are read as, if there are any. -/
def documentOf : Option Bytes → Except DatabaseError (Option Value)
  | none => .ok none
  | some bytes =>
    match Value.decode bytes with
    | .ok value => .ok (some value)
    | .error error => .error (.document error)

theorem documentOf_ok_iff {bytes : Bytes} {value : Value} :
    documentOf (some bytes) = .ok (some value) ↔ Value.decode bytes = .ok value := by
  cases decoded : Value.decode bytes <;> simp [documentOf, decoded]

theorem getDocument?_of_editable {document : EditableDocument} (staged : handle.staged.get? key = some (.editable document)) :
    handle.getDocument? key = .ok (some document.value) := by
  unfold getDocument?
  rw [staged]

theorem getDocument?_of_plain (plain : ∀ document, handle.staged.get? key ≠ some (.editable document)) :
    handle.getDocument? key = documentOf (handle.get? key) := by
  unfold getDocument?
  split
  · rename_i document staged
    exact absurd staged (plain document)
  · cases handle.get? key <;> rfl

theorem getDocument?_of_staged_empty (bare : handle.staged = KeyMap.empty) (key : Bytes) :
    handle.getDocument? key = documentOf (handle.get? key) := by
  refine getDocument?_of_plain fun document staged => ?_
  rw [bare, KeyMap.get?_empty] at staged
  contradiction

/-- A handle with nothing staged any more reads a document as before unless it was edited and its
encoding does not decode to it. -/
theorem Faithful.rereads_iff (faithful : handle.Faithful) (bare : after.staged = KeyMap.empty)
    (same : after.get? key = handle.get? key) {found : Option Value} (read : handle.getDocument? key = .ok found) :
    after.getDocument? key = .ok found ↔
      ∀ document, handle.staged.get? key = some (.editable document) → document.changed = true →
        Value.decode document.encode = .ok document.value := by
  rw [getDocument?_of_staged_empty bare, same]
  -- only a document under edit is read from memory
  by_cases edited : ∃ document, handle.staged.get? key = some (.editable document)
  · obtain ⟨document, staged⟩ := edited
    obtain rfl := Except.ok.inj ((getDocument?_of_editable staged).symm.trans read)
    have only {P : EditableDocument → Prop} :
        (∀ other, handle.staged.get? key = some (.editable other) → P other) ↔ P document := by
      constructor
      · exact fun all => all document staged
      · intro holds other again
        obtain rfl := Pending.editable.inj (Option.some.inj (staged.symm.trans again))
        exact holds
    rw [only]
    cases changed : document.changed with
    | true =>
      have written : handle.get? key = some document.encode := get?_of_written staged (by simp [Pending.written?, changed])
      rw [written, documentOf_ok_iff]
      exact ⟨fun decoded _ => decoded, fun decoded => decoded rfl⟩
    | false =>
      obtain ⟨bytes, committed, decoded⟩ := (faithful key _ staged).2 changed
      have kept : handle.get? key = some bytes := by
        unfold get?
        rw [staged]
        simp only [changed, Bool.false_eq_true, if_false, committed]
      rw [kept, documentOf_ok_iff]
      exact ⟨fun _ again => absurd again Bool.false_ne_true, fun _ => decoded⟩
  · push Not at edited
    rw [getDocument?_of_plain edited] at read
    exact ⟨fun _ document staged => absurd staged (edited document), fun _ => read⟩

end Handle

namespace Session

open Handle MemoryStore

variable {session after start : Session} {answer : Answer} {checkpoint : Nat}

theorem regular_run (valid : session.Valid) (regular : ∀ key, (session.handle.slot key).Regular)
    {operations : List Operation} (fits : ∀ operation ∈ operations, operation.Regular)
    (addressable : (session.run operations).handle.image.size < 256 ^ 8) (key : Bytes) :
    ((session.run operations).handle.slot key).Regular := by
  induction operations generalizing session with
  | nil => exact regular key
  | cons operation rest ih =>
    have moved := step_moved valid.sound operation
    -- images only grow, so each one in the run is addressable
    have later := size_mono (image_run (sound_of_moved valid.sound moved) rest)
    have between := Nat.lt_of_le_of_lt later addressable
    have stepped := every_step Slot.regular_bare
      (fun _ _ named _ slot => slot.act (named ▸ fits operation List.mem_cons_self)) (fun _ => valid.grounded) regular between
    exact ih (valid.of_moved moved between) stepped (fun other mem => fits other (List.mem_cons_of_mem _ mem)) addressable

/-- A commit that succeeds leaves nothing staged, and every key with the bytes it had. -/
theorem committed_spec (valid : session.Valid) (committed : session.step .commit = (.committed checkpoint, after))
    (addressable : after.handle.image.size < 256 ^ 8) :
    after.handle.staged = KeyMap.empty ∧ (∀ key, after.handle.get? key = session.handle.get? key) ∧ after.Valid ∧
      after.handle.poisoned = false := by
  have moved := step_moved valid.sound .commit
  rw [committed] at moved
  have kept := valid.of_moved moved addressable
  have outcome := commit_outcome session.handle session.store
  have stepped : session.step .commit = (.ofCommit (commit device session.handle session.store).1.result,
    ⟨(commit device session.handle session.store).1.handle, (commit device session.handle session.store).2⟩) := rfl
  rw [committed] at stepped
  obtain ⟨answered, rfl⟩ := Prod.mk.inj stepped
  generalize commit device session.handle session.store = pair at *
  obtain ⟨made, store⟩ := pair
  dsimp only at outcome answered addressable kept ⊢
  cases outcome with
  | refused events cause => contradiction
  | skipped events writable healthy nothing => exact ⟨rfl, get?_of_changes_eq_nil nothing, kept, healthy⟩
  | appended attempted image =>
    obtain ⟨same, -, -⟩ := advance_of_attempted valid.grounded attempted addressable
    obtain ⟨count, fit, -⟩ := attempted_spec attempted
    rw [same] at addressable ⊢
    exact ⟨rfl, fun key => valid.grounded.get?_advanced count fit addressable, same ▸ kept, attempted.healthy⟩
  | cut events attempted split image => contradiction
  | stuck events attempted split image => contradiction

/-! ### Nested arrays -/

/-- Arrays in arrays, and an empty one innermost. -/
def nested : Nat → Value
  | 0 => .array []
  | n + 1 => .array [nested n]

theorem nested_spec (n : Nat) :
    (nested n).Regular ∧ (nested n).doubles = [] ∧ (nested n).depth = n + 1 ∧ (nested n).chars.length = 2 * n + 2 := by
  induction n with
  | zero =>
    refine ⟨.array nofun, Value.doubles_array [], Value.depth_array [], ?_⟩
    rw [nested, Value.chars_array]
    rfl
  | succ n ih =>
    obtain ⟨regular, doubles, depth, length⟩ := ih
    refine ⟨.array fun item mem => ?_, ?_, ?_, ?_⟩
    · rw [List.mem_singleton.mp mem]
      exact regular
    · rw [nested, Value.doubles_array, List.flatMap_singleton, doubles]
    · rw [nested, Value.depth_array, List.map_singleton, depth]
      rfl
    · rw [nested, Value.chars_array, List.map_singleton]
      simp [Json.enclose, length]
      omega

def sample (n : Nat) : Fields := [("a", .integer 1), ("f", nested n)]

theorem sample_spec (n : Nat) :
    (Value.object (sample n)).Regular ∧ (Value.object (sample n)).doubles = [] ∧ (Value.object (sample n)).depth = n + 2 ∧
      (Value.object (sample n)).chars.length = 2 * n + 14 := by
  obtain ⟨regular, doubles, depth, length⟩ := nested_spec n
  have one : (Value.integer 1).depth = 0 ∧ (Value.integer 1).doubles = [] :=
    ⟨Value.fold_leaf rfl, Value.fold_leaf rfl⟩
  have order : Entries.Ascending (sample n) := by
    refine List.pairwise_cons.mpr ⟨fun entry mem => ?_, List.pairwise_singleton _ _⟩
    rw [List.mem_singleton.mp mem]
    show "a" < "f"
    decide
  refine ⟨.object order fun field mem => ?_, ?_, ?_, ?_⟩
  · have among : field = ("a", .integer 1) ∨ field = ("f", nested n) := by simpa [sample] using mem
    rcases among with rfl | rfl
    · exact .integer (by decide) (by decide)
    · exact regular
  · simp [Value.doubles_object, sample, one, doubles]
  · simp [Value.depth_object, sample, one, depth]
  · have digit : (Value.integer 1).chars.length = 1 := by
      rw [Value.chars]
      rfl
    have first : (Json.quote "a").length = 3 := by decide
    have second : (Json.quote "f").length = 3 := by decide
    simp [Value.chars_object, sample, Value.fieldChars, Json.enclose, length, digit, first, second]
    omega

theorem decode_sample (n : Nat) :
    Value.decode (Value.object (sample n)).encode
      = if n + 2 ≤ Json.maxNesting then .ok (.object (sample n)) else .error .malformed := by
  obtain ⟨regular, doubles, depth, -⟩ := sample_spec n
  rw [Value.decode_encode regular (by rw [doubles]; nofun), depth]

theorem length_utf8Encode_le (text : List Char) : text.utf8Encode.size ≤ 4 * text.length := by
  induction text with
  | nil => simp
  | cons c text ih =>
    have one := c.utf8Size_le_four
    have single : [c].utf8Encode.size = c.utf8Size := by simp [List.utf8Encode_singleton]
    rw [List.utf8Encode_cons, ByteArray.size_append, single, List.length_cons]
    omega

theorem length_encode_le (value : Value) : value.encode.length ≤ 4 * value.chars.length := by
  have size : value.encode.length = value.chars.utf8Encode.size := by simp [Value.encode, Bytes.ofString, Value.text]
  rw [size]
  exact length_utf8Encode_le _

theorem step_putDocument {handle : Handle} (writable : handle.access = .write) (store : MemoryStore) (key : Bytes)
    (document : Value) : ((⟨handle, store⟩ : Session).step (.putDocument key document .upsert)).2
      = ⟨handle.restaged (handle.staged.insert key (.value document.encode)), store⟩ :=
  step_put writable store key document.encode

/-- A document is put, and a nested array is set in it. -/
def sampleEdits (n : Nat) : List Operation :=
  [.putDocument [0x6b] (.object [("a", .integer 1)]) .upsert, .edit [0x6b] [.set "f" (nested n)]]

theorem regular_sampleEdits (n : Nat) : ∀ operation ∈ sampleEdits n, operation.Regular := by
  intro operation mem
  have among : operation = .putDocument [0x6b] (.object [("a", .integer 1)]) .upsert ∨
      operation = .edit [0x6b] [.set "f" (nested n)] := by simpa [sampleEdits] using mem
  rcases among with rfl | rfl
  · trivial
  · intro edit mem
    rw [List.mem_singleton.mp mem]
    exact (nested_spec n).1

theorem run_sampleEdits (n : Nat) :
    ∃ store : MemoryStore, store.Faultless ∧ (create { pageSize := 512 } {}).run (sampleEdits n)
      = ⟨(new { pageSize := 512 }).restaged (KeyMap.empty.insert [0x6b] (.editable ⟨sample n, true⟩)), store⟩ := by
  have valid : Settings.validate { pageSize := 512 } = .ok () := rfl
  have faultless : (create { pageSize := 512 } {}).store.Faultless := plan_create valid rfl rfl rfl
  obtain ⟨store, started⟩ : ∃ store, create { pageSize := 512 } {} = ⟨new { pageSize := 512 }, store⟩ := ⟨_, rfl⟩
  have plain : Value.decode (Value.object [("a", .integer 1)]).encode
      = .ok (EditableDocument.value ⟨[("a", .integer 1)], false⟩) := by cbv
  rw [started] at faultless ⊢
  refine ⟨store, faultless, ?_⟩
  rw [sampleEdits, run, step_putDocument rfl, run, step_edit rfl _ rfl (editableOf_ok_iff.mpr ⟨plain, rfl⟩), run]
  rfl

theorem commit_of_short {handle : Handle} {store : MemoryStore} (grounded : handle.Grounded) (faultless : store.Faultless)
    (writable : handle.access = .write) (healthy : handle.poisoned = false) {key bytes : Bytes}
    (changes : handle.staged.changes = [⟨key, some bytes⟩]) (page : handle.pageSize = 512) (size : handle.image.size = 512)
    (short : key.length + bytes.length ≤ 4096) :
    ∃ checkpoint after, (⟨handle, store⟩ : Session).step .commit = (.committed checkpoint, after) ∧
      after.handle.image.size < 256 ^ 8 := by
  have fits : Change.Fits ⟨key, some bytes⟩ := by
    show 17 + key.length + bytes.length < 4294967296
    omega
  have length : (Change.encode ⟨key, some bytes⟩).length = 17 + key.length + bytes.length := by
    simp [Change.encodedLength, Change.overhead, Change.valueBytes]
  have above := roundUp_lt (512 + (17 + key.length + bytes.length) + 40) (show 0 < 512 by decide)
  have below : roundUp (handle.image.size + (Change.encode ⟨key, some bytes⟩).length + 40) handle.pageSize < 256 ^ 8 := by
    rw [length, size, page]
    omega
  obtain ⟨store, committed, stop⟩ := @step_commit_of_change ⟨handle, store⟩ _ grounded writable healthy changes
    fits faultless below
  exact ⟨_, _, committed, stop ▸ below⟩

theorem edited_sample (n : Nat) (small : n ≤ 126) :
    ∃ session checkpoint after,
      session = (create { pageSize := 512 } {}).run (sampleEdits n) ∧ session.Valid ∧
      session.handle.staged.get? [0x6b] = some (.editable ⟨sample n, true⟩) ∧
      session.step .commit = (.committed checkpoint, after) ∧ after.handle.image.size < 256 ^ 8 := by
  have reached := reached_create (show Settings.validate { pageSize := 512 } = .ok () from rfl) (sampleEdits n)
  obtain ⟨store, faultless, held⟩ := run_sampleEdits n
  rw [held] at reached ⊢
  generalize made : (new { pageSize := 512 }).restaged (KeyMap.empty.insert [0x6b] (.editable ⟨sample n, true⟩)) = handle at *
  have staged : handle.staged = KeyMap.empty.insert [0x6b] (.editable ⟨sample n, true⟩) := made ▸ rfl
  have size : handle.image.size = 512 := made ▸ size_newImage _
  have valid := reached.valid (lt_of_eq_of_lt size (by decide))
  have changes : handle.staged.changes = [⟨[0x6b], some (Value.object (sample n)).encode⟩] := by
    rw [staged]
    exact Staging.changes_insert_empty _ rfl
  have short := length_encode_le (.object (sample n))
  rw [(sample_spec n).2.2.2] at short
  obtain ⟨checkpoint, after, committed, addressable⟩ := commit_of_short valid.grounded faultless (made ▸ rfl) (made ▸ rfl)
    changes (made ▸ rfl) size (show 1 + (Value.object (sample n)).encode.length ≤ 4096 by omega)
  refine ⟨_, checkpoint, after, rfl, valid, ?_, committed, addressable⟩
  show handle.staged.get? [0x6b] = _
  rw [staged, KeyMap.get?_insert, if_pos rfl]

/-- A commit that succeeds changes what a key reads as exactly when its document was edited and the encoding
does not decode to it. If the doubles in the document are read back from their own texts, that is when it
is nested too deep. What is opened anew reads as the handle does. -/
theorem document_rereads_iff (opened : Opened start) {operations : List Operation}
    (fits : ∀ operation ∈ operations, operation.Regular)
    (committed : (start.run operations).step .commit = (.committed checkpoint, after))
    (addressable : after.handle.image.size < 256 ^ 8) {key : Bytes} {found : Option Value}
    (read : (start.run operations).handle.getDocument? key = .ok found) :
    (after.handle.getDocument? key = .ok found ↔
        ∀ document, (start.run operations).handle.staged.get? key = some (.editable document) → document.changed = true →
          Value.decode document.encode = .ok document.value) ∧
      (∀ document, (start.run operations).handle.staged.get? key = some (.editable document) →
        (∀ x ∈ document.value.doubles, Json.ReadsBack x) →
          (Value.decode document.encode = .ok document.value ↔ document.value.depth ≤ Json.maxNesting)) ∧
      Opens after.store.image fun fresh _ => fresh.getDocument? key = after.handle.getDocument? key := by
  have moved := step_moved (sound_run opened.valid.sound operations) .commit
  have grown := size_mono (image_of_moved moved)
  rw [committed] at grown
  have within := Nat.lt_of_le_of_lt grown addressable
  have valid := opened.valid.run operations within
  have faithful : (start.run operations).handle.Faithful :=
    faithful_of_regular (regular_run opened.valid (every_of_staged_empty Slot.regular_bare opened.staged) fits within)
      (((Reachable.opened opened).run operations).warranted within)
  obtain ⟨empty, same, kept, healthy⟩ := committed_spec valid committed addressable
  refine ⟨faithful.rereads_iff empty (same key) read, fun document staged back => ?_, ?_⟩
  · rw [EditableDocument.encode, Value.decode_encode (faithful key _ staged).1 back]
    by_cases shallow : document.value.depth ≤ Json.maxNesting
    · simp [shallow]
    · simp [shallow]
  · rw [kept.stored healthy]
    refine opens_of_grounded kept.grounded fun mode settings location store image faultless => ?_
    rw [getDocument?_of_staged_empty rfl, getDocument?_of_staged_empty empty, get?_of_staged_empty rfl,
      get?_of_staged_empty empty]
    rfl

/-- A document that is nested as deep as the parser goes. -/
theorem deepest_sample_rereads :
    ∃ session checkpoint after,
      session = (create { pageSize := 512 } {}).run (sampleEdits 125) ∧
      session.handle.getDocument? [0x6b] = .ok (some (.object (sample 125))) ∧
      session.step .commit = (.committed checkpoint, after) ∧
      after.handle.getDocument? [0x6b] = .ok (some (.object (sample 125))) ∧
      Opens after.store.image fun fresh _ => fresh.getDocument? [0x6b] = .ok (some (.object (sample 125))) := by
  obtain ⟨session, checkpoint, after, named, -, staged, committed, addressable⟩ := edited_sample 125 (by decide)
  have read := getDocument?_of_editable staged
  have opened : Opened (create { pageSize := 512 } {}) := opened_create rfl rfl rfl rfl
  subst named
  obtain ⟨exactly, -, anew⟩ := document_rereads_iff opened (regular_sampleEdits 125) committed addressable read
  have again := exactly.mpr fun document other _ => by
    obtain rfl := Pending.editable.inj (Option.some.inj (staged.symm.trans other))
    exact decode_sample 125
  rw [again] at anew
  exact ⟨_, checkpoint, after, rfl, read, committed, again, anew⟩

/-- One level deeper the commit still succeeds, and the document cannot be read any more. -/
theorem deeper_sample_is_lost :
    ∃ session checkpoint after,
      session = (create { pageSize := 512 } {}).run (sampleEdits 126) ∧
      session.handle.getDocument? [0x6b] = .ok (some (.object (sample 126))) ∧
      session.step .commit = (.committed checkpoint, after) ∧
      after.handle.getDocument? [0x6b] = .error (.document .malformed) := by
  obtain ⟨session, checkpoint, after, named, valid, staged, committed, addressable⟩ := edited_sample 126 (by decide)
  refine ⟨session, checkpoint, after, named, getDocument?_of_editable staged, committed, ?_⟩
  obtain ⟨empty, same, -, -⟩ := committed_spec valid committed addressable
  have written : session.handle.get? [0x6b] = some (Value.object (sample 126)).encode := get?_of_written staged rfl
  have refused : Value.decode (Value.object (sample 126)).encode = .error .malformed := decode_sample 126
  rw [getDocument?_of_staged_empty empty, same, written, documentOf, refused]

end Session
end CheckpointStore
