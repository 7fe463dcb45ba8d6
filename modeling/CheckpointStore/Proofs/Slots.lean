import CheckpointStore.Proofs.Sessions

/-!
# Slots

What is staged for one key, beside what is committed for it. Putting, removing and editing read the
slot of their key and write what is staged in it, so whatever the steps of a slot keep is kept under
every key of a session.
-/

namespace CheckpointStore

namespace KeyMap

variable {α : Type} (map : KeyMap α)

/-- The map with a key's value replaced, or taken away. -/
def set (key : Bytes) : Option α → KeyMap α
  | some value => map.insert key value
  | none => map.erase key

theorem get?_set (key other : Bytes) (value : Option α) :
    (map.set key value).get? other = if other = key then value else map.get? other := by
  cases value with
  | some value => exact get?_insert map key other value
  | none => exact get?_erase map key other

theorem set_get? (key : Bytes) : map.set key (map.get? key) = map := by
  refine ext fun other => ?_
  rw [get?_set]
  split
  · rename_i same
    rw [same]
  · rfl

theorem set_set (key : Bytes) (first second : Option α) : (map.set key first).set key second = map.set key second := by
  refine ext fun other => ?_
  simp only [get?_set]
  split <;> rfl

end KeyMap

/-- What can be done under one key between commits. -/
inductive KeyOperation where
  | put (value : Bytes) (mode : PutMode)
  | putDocument (document : Value) (mode : PutMode)
  | remove
  | edit (edits : List Edit)

def KeyOperation.on (key : Bytes) : KeyOperation → Operation
  | .put value mode => .put key value mode
  | .putDocument document mode => .putDocument key document mode
  | .remove => .remove key
  | .edit edits => .edit key edits

/-- An operation is on one key, or it drops or writes all that is staged. -/
theorem Operation.cases_key (operation : Operation) :
    (∃ key staging, operation = KeyOperation.on key staging) ∨ operation = .revert ∨ operation = .commit := by
  cases operation with
  | put key value mode => exact .inl ⟨key, .put value mode, rfl⟩
  | putDocument key document mode => exact .inl ⟨key, .putDocument document mode, rfl⟩
  | remove key => exact .inl ⟨key, .remove, rfl⟩
  | edit key edits => exact .inl ⟨key, .edit edits, rfl⟩
  | revert => exact .inr (.inl rfl)
  | commit => exact .inr (.inr rfl)

/-- The answer to an operation, and the document that was handed out before any edit. -/
structure Reply where
  answer : Answer
  document : Option EditableDocument

/-- What is committed for a key, and what is staged for it. -/
structure Slot where
  committed : Option Bytes
  staged : Option Pending

namespace Slot

def present (slot : Slot) : Bool :=
  match slot.staged with
  | some .removed => false
  | some _ => true
  | none => slot.committed.isSome

/-- The document that is handed out for editing, if the key has one. -/
def document? (slot : Slot) : Except DatabaseError (Option EditableDocument) :=
  match slot.staged with
  | some (.editable document) => .ok (some document)
  | some .removed => .ok none
  | some (.value bytes) => (Handle.editableOf bytes).map fun document => some document.markChanged
  | none =>
    match slot.committed with
    | none => .ok none
    | some bytes => (Handle.editableOf bytes).map some

def put (slot : Slot) (value : Bytes) (mode : PutMode) : Reply × Slot :=
  (⟨.applied (mode.allows slot.present), none⟩,
    if mode.allows slot.present then { slot with staged := some (.value value) } else slot)

/-- What an operation on its key answers and makes of a slot. -/
def act (slot : Slot) : KeyOperation → Reply × Slot
  | .put value mode => slot.put value mode
  | .putDocument document mode => slot.put document.encode mode
  | .remove =>
    (⟨.applied slot.present, none⟩,
      if slot.present then { slot with staged := if slot.committed.isSome then some .removed else none } else slot)
  | .edit edits =>
    match slot.document? with
    | .error error => (⟨.failed error, none⟩, slot)
    | .ok none => (⟨.edited none, none⟩, slot)
    | .ok (some document) =>
      let edited := edits.foldl Edit.apply document
      (⟨.edited (some edited), some document⟩, { slot with staged := some (.editable edited) })

/-- Where a document that is handed out comes from. -/
inductive Handed (slot : Slot) (document : EditableDocument) : Prop where
  | again (staged : slot.staged = some (.editable document)) : Handed slot document
  | put {bytes : Bytes} {given : EditableDocument} (staged : slot.staged = some (.value bytes))
      (read : Handle.editableOf bytes = .ok given) (marked : document = given.markChanged) : Handed slot document
  | committed {bytes : Bytes} (bare : slot.staged = none) (committed : slot.committed = some bytes)
      (read : Handle.editableOf bytes = .ok document) : Handed slot document

theorem handed_of_document? {slot : Slot} {document : EditableDocument} (taken : slot.document? = .ok (some document)) :
    slot.Handed document := by
  unfold document? at taken
  split at taken
  · rename_i given staged
    obtain rfl := Option.some.inj (Except.ok.inj taken)
    exact .again staged
  · exact nomatch Except.ok.inj taken
  · rename_i bytes staged
    cases read : Handle.editableOf bytes with
    | error error => simp [read, Except.map] at taken
    | ok given =>
      simp only [read, Except.map, Except.ok.injEq, Option.some.injEq] at taken
      exact .put staged read taken.symm
  · rename_i bare
    split at taken
    · exact nomatch Except.ok.inj taken
    · rename_i bytes committed
      cases read : Handle.editableOf bytes with
      | error error => simp [read, Except.map] at taken
      | ok given =>
        simp only [read, Except.map, Except.ok.injEq, Option.some.injEq] at taken
        exact .committed bare committed (taken ▸ read)

theorem committed_act (slot : Slot) (operation : KeyOperation) : (slot.act operation).2.committed = slot.committed := by
  unfold act
  cases operation with
  | put value mode =>
    dsimp only [put]
    split <;> rfl
  | putDocument document mode =>
    dsimp only [put]
    split <;> rfl
  | remove =>
    dsimp only
    split <;> rfl
  | edit edits =>
    dsimp only
    split <;> rfl

theorem act_edit_of_value {slot : Slot} {bytes : Bytes} {document : EditableDocument} {edits : List Edit}
    (staged : slot.staged = some (.value bytes)) (read : Handle.editableOf bytes = .ok document) :
    (slot.act (.edit edits)).2
      = { slot with staged := some (.editable (edits.foldl Edit.apply document.markChanged)) } := by
  have taken : slot.document? = .ok (some document.markChanged) := by
    unfold document?
    rw [staged]
    exact congrArg (Except.map fun document : EditableDocument => some document.markChanged) read
  dsimp only [act]
  rw [taken]

end Slot

namespace Handle

def slot (handle : Handle) (key : Bytes) : Slot := ⟨handle.committed? key, handle.staged.get? key⟩

variable {handle : Handle}

theorem contains_slot (handle : Handle) (key : Bytes) : handle.contains key = (handle.slot key).present := by
  unfold contains Slot.present slot
  cases handle.staged.get? key with
  | none => simp [LiveIndex.contains, committed?, LiveIndex.get?, KeyMap.contains_eq]
  | some pending => cases pending <;> rfl

theorem index_contains_slot (handle : Handle) (key : Bytes) :
    handle.index.contains key = (handle.slot key).committed.isSome := by
  simp [slot, LiveIndex.contains, committed?, LiveIndex.get?, KeyMap.contains_eq]

/-- The handle with another slot under a key. -/
def withSlot (handle : Handle) (key : Bytes) (slot : Slot) : Handle :=
  handle.restaged (handle.staged.set key slot.staged)

theorem withSlot_slot (handle : Handle) (key : Bytes) : handle.withSlot key (handle.slot key) = handle := by
  unfold withSlot slot
  rw [KeyMap.set_get?]
  rfl

theorem slot_withSlot (handle : Handle) (key other : Bytes) (slot : Slot) (same : slot.committed = handle.committed? key) :
    (handle.withSlot key slot).slot other = if other = key then slot else handle.slot other := by
  have staged : (handle.withSlot key slot).staged.get? other = _ := KeyMap.get?_set handle.staged key other slot.staged
  unfold Handle.slot
  rw [staged]
  split
  · rename_i here
    rw [here]
    exact congrArg (Slot.mk · slot.staged) same.symm
  · rfl

theorem put_slot (writable : handle.access = .write) (key value : Bytes) (mode : PutMode) :
    handle.put key value mode
      = .ok (mode.allows (handle.slot key).present, handle.withSlot key ((handle.slot key).put value mode).2) := by
  unfold Handle.put Slot.put
  rw [ensureWritable_ok_iff.mpr writable, contains_slot]
  cases allowed : mode.allows (handle.slot key).present with
  | true => rfl
  | false => exact congrArg (fun held => Except.ok (false, held)) (handle.withSlot_slot key).symm

theorem remove_slot (writable : handle.access = .write) (key : Bytes) :
    handle.remove key
      = .ok ((handle.slot key).present, handle.withSlot key ((handle.slot key).act .remove).2) := by
  unfold Handle.remove Slot.act
  rw [ensureWritable_ok_iff.mpr writable, contains_slot, index_contains_slot]
  cases present : (handle.slot key).present with
  | false => exact congrArg (fun held => Except.ok (false, held)) (handle.withSlot_slot key).symm
  | true =>
    cases committed : (handle.slot key).committed.isSome with
    | true => rfl
    | false => rfl

theorem putBack_withSlot (handle : Handle) (key : Bytes) (slot : Slot) (document : EditableDocument) :
    (handle.withSlot key slot).putBack key document
      = handle.withSlot key { slot with staged := some (.editable document) } :=
  congrArg handle.restaged (KeyMap.set_set handle.staged key slot.staged (some (.editable document)))

/-- Taking a document under edit stages it, where the key has one that can be read. -/
theorem edit?_slot (writable : handle.access = .write) (key : Bytes) :
    handle.edit? key = (handle.slot key).document?.map fun document =>
      (document, handle.withSlot key
        { handle.slot key with staged := (document.map Pending.editable).or (handle.slot key).staged }) := by
  have kept := handle.withSlot_slot key
  unfold edit? Slot.document?
  rw [ensureWritable_ok_iff.mpr writable]
  dsimp only [slot] at kept ⊢
  cases staged : handle.staged.get? key with
  | none =>
    rw [staged] at kept
    cases handle.committed? key with
    | none => exact congrArg (fun held => Except.ok (none, held)) kept.symm
    | some bytes =>
      dsimp only
      cases editableOf bytes <;> rfl
  | some pending =>
    rw [staged] at kept
    cases pending with
    | removed => exact congrArg (fun held => Except.ok (none, held)) kept.symm
    | editable document => exact congrArg (fun held => Except.ok (some document, held)) kept.symm
    | value bytes =>
      dsimp only
      cases editableOf bytes <;> rfl

end Handle

namespace Session

open Handle MemoryStore

variable {session : Session}

/-- The document that an operation takes for editing, before it edits it. -/
def handedOut (session : Session) : Operation → Option EditableDocument
  | .edit key _ =>
    match session.handle.edit? key with
    | .ok (document, _) => document
    | .error _ => none
  | _ => none

def reply (session : Session) (operation : Operation) : Reply :=
  ⟨(session.step operation).1, session.handedOut operation⟩

/-- The replies to operations, one after the other. -/
def replies (session : Session) : List Operation → List Reply
  | [] => []
  | operation :: rest => session.reply operation :: (session.step operation).2.replies rest

/-- An operation on a key goes as its slot says, and leaves all else. -/
theorem step_on (writable : session.handle.access = .write) (key : Bytes) (operation : KeyOperation) :
    session.reply (operation.on key) = ((session.handle.slot key).act operation).1 ∧
      (session.step (operation.on key)).2
        = ⟨session.handle.withSlot key ((session.handle.slot key).act operation).2, session.store⟩ := by
  unfold reply
  cases operation with
  | put value mode =>
    unfold KeyOperation.on step
    dsimp only
    rw [put_slot writable]
    exact ⟨rfl, rfl⟩
  | putDocument document mode =>
    unfold KeyOperation.on step putDocument
    dsimp only
    rw [put_slot writable]
    exact ⟨rfl, rfl⟩
  | remove =>
    unfold KeyOperation.on step
    dsimp only
    rw [remove_slot writable]
    exact ⟨rfl, rfl⟩
  | edit edits =>
    have kept := session.handle.withSlot_slot key
    unfold KeyOperation.on step handedOut Slot.act
    dsimp only
    rw [edit?_slot writable]
    cases (session.handle.slot key).document? with
    | error error => exact ⟨rfl, congrArg (Session.mk · session.store) kept.symm⟩
    | ok document =>
      cases document with
      | none => exact ⟨rfl, rfl⟩
      | some document => exact ⟨rfl, congrArg (Session.mk · session.store) (putBack_withSlot _ key _ _)⟩

/-- A handle that takes no changes refuses an operation on a key. -/
theorem step_on_of_refused {error : DatabaseError} (refused : session.handle.ensureWritable = .error error) (key : Bytes)
    (operation : KeyOperation) :
    session.reply (operation.on key) = ⟨.failed error, none⟩ ∧ (session.step (operation.on key)).2 = session := by
  unfold reply
  cases operation with
  | put value mode =>
    unfold KeyOperation.on step Handle.put
    rw [refused]
    exact ⟨rfl, rfl⟩
  | putDocument document mode =>
    unfold KeyOperation.on step putDocument Handle.put
    rw [refused]
    exact ⟨rfl, rfl⟩
  | remove =>
    unfold KeyOperation.on step Handle.remove
    rw [refused]
    exact ⟨rfl, rfl⟩
  | edit edits =>
    unfold KeyOperation.on step handedOut edit?
    rw [refused]
    exact ⟨rfl, rfl⟩

theorem slot_step_on (writable : session.handle.access = .write) (key other : Bytes) (operation : KeyOperation) :
    (session.step (operation.on key)).2.handle.slot other
      = if other = key then ((session.handle.slot key).act operation).2 else session.handle.slot other := by
  rw [(step_on writable key operation).2]
  exact slot_withSlot _ _ _ _ (Slot.committed_act _ operation)

/-- A value that is the only staged change is edited. -/
theorem step_edit {handle : Handle} (writable : handle.access = .write) (store : MemoryStore) {key bytes : Bytes}
    {document : EditableDocument} (staged : handle.staged = KeyMap.empty.insert key (.value bytes))
    (read : editableOf bytes = .ok document) (edits : List Edit) :
    ((⟨handle, store⟩ : Session).step (.edit key edits)).2
      = ⟨handle.restaged (KeyMap.empty.insert key (.editable (edits.foldl Edit.apply document.markChanged))), store⟩ := by
  have held : (handle.slot key).staged = some (.value bytes) := by
    show handle.staged.get? key = _
    rw [staged, KeyMap.get?_insert, if_pos rfl]
  have last (pending : Pending) : (KeyMap.empty.insert key (.value bytes)).set key (some pending)
      = KeyMap.empty.insert key pending := KeyMap.set_set KeyMap.empty key (some _) (some pending)
  rw [show Operation.edit key edits = KeyOperation.on key (.edit edits) from rfl,
    (@step_on ⟨handle, store⟩ writable key _).2, Slot.act_edit_of_value held read]
  unfold withSlot
  dsimp only
  rw [staged, last]

/-! ### What every slot keeps -/

section Every

variable {holds : Slot → Prop}

theorem every_of_staged_empty {handle : Handle} (bare : ∀ committed, holds ⟨committed, none⟩)
    (empty : handle.staged = KeyMap.empty) (key : Bytes) : holds (handle.slot key) := by
  unfold slot
  rw [empty, KeyMap.get?_empty]
  exact bare _

/-- A commit leaves what is staged, or nothing staged at all. -/
theorem every_of_outcome (bare : ∀ committed, holds ⟨committed, none⟩)
    (grounded : session.handle.access = .write → session.handle.Grounded) (every : ∀ key, holds (session.handle.slot key))
    {committed : Committed} {store : MemoryStore} (outcome : CommitOutcome session.handle session.store committed store)
    (addressable : committed.handle.image.size < 256 ^ 8) (key : Bytes) : holds (committed.handle.slot key) := by
  cases outcome with
  | refused events cause => exact every key
  | skipped events writable healthy nothing => exact every_of_staged_empty bare rfl key
  | appended attempted image =>
    obtain ⟨same, -, -⟩ := advance_of_attempted (grounded attempted.writable) attempted addressable
    rw [same]
    exact every_of_staged_empty bare rfl key
  | cut events attempted split image => exact every key
  | stuck events attempted split image => exact every key

/-- What holds of slots without a staged change, and is kept under the key that is operated on, is kept
under every key. -/
theorem every_step (bare : ∀ committed, holds ⟨committed, none⟩) {operation : Operation}
    (kept : ∀ key staging, operation = KeyOperation.on key staging → ∀ slot, holds slot → holds (slot.act staging).2)
    (grounded : session.handle.access = .write → session.handle.Grounded) (every : ∀ key, holds (session.handle.slot key))
    (addressable : (session.step operation).2.handle.image.size < 256 ^ 8) (key : Bytes) :
    holds ((session.step operation).2.handle.slot key) := by
  obtain ⟨place, staging, rfl⟩ | rfl | rfl := operation.cases_key
  · cases writable : session.handle.ensureWritable with
    | error error =>
      rw [(step_on_of_refused writable place staging).2]
      exact every key
    | ok done =>
      rw [slot_step_on (ensureWritable_ok_iff.mp writable)]
      split
      · exact kept place staging rfl _ (every place)
      · exact every key
  · exact every_of_staged_empty bare rfl key
  · exact every_of_outcome bare grounded every (commit_outcome session.handle session.store) addressable key

end Every

end Session
end CheckpointStore
