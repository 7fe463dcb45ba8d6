import CheckpointStore.Proofs.Writes

/-!
# Documents taken for editing

A document that is taken for editing and not edited stands in place of what was staged or committed for
its key. No later reply tells the two apart, and neither does a commit, unless a value was staged that
spells its object otherwise than the encoder does: the encoder's spelling is read and written instead of it.
-/

namespace CheckpointStore

namespace Slot

/-- A slot, and the slot that taking its document leaves. -/
inductive Taken : Slot → Slot → Prop where
  | same (slot : Slot) : Taken slot slot
  | committed {bytes : Bytes} {document : EditableDocument} (read : Handle.editableOf bytes = .ok document) :
      Taken ⟨some bytes, none⟩ ⟨some bytes, some (.editable document)⟩
  | put (committed : Option Bytes) {bytes : Bytes} {document : EditableDocument}
      (read : Handle.editableOf bytes = .ok document) :
      Taken ⟨committed, some (.value bytes)⟩ ⟨committed, some (.editable document.markChanged)⟩

theorem taken_act_edit (slot : Slot) : slot.Taken (slot.act (.edit [])).2 := by
  dsimp only [act]
  split
  · exact .same slot
  · exact .same slot
  · rename_i document taken
    obtain ⟨committed, staged⟩ := slot
    cases handed_of_document? taken with
    | again again =>
      obtain rfl : staged = _ := again
      exact .same _
    | put staged read marked =>
      obtain rfl := staged
      rw [marked]
      exact .put committed read
    | committed bare committed read =>
      obtain rfl := bare
      obtain rfl := committed
      exact .committed read

theorem Taken.alike {a b : Slot} (taken : a.Taken b) :
    a.committed = b.committed ∧ a.present = b.present ∧ a.document? = b.document? := by
  cases taken with
  | same => exact ⟨rfl, rfl, rfl⟩
  | committed read => exact ⟨rfl, rfl, congrArg (Except.map some) read⟩
  | put committed read =>
    exact ⟨rfl, rfl, congrArg (Except.map fun document : EditableDocument => some document.markChanged) read⟩

theorem put_of_alike {a b : Slot} (committed : a.committed = b.committed) (present : a.present = b.present) (value : Bytes)
    (mode : PutMode) :
    (a.put value mode).1 = (b.put value mode).1 ∧
      ((a.put value mode).2 = (b.put value mode).2 ∨ (a.put value mode).2 = a ∧ (b.put value mode).2 = b) := by
  unfold put
  rw [present]
  refine ⟨rfl, ?_⟩
  split
  · rw [committed]
    exact .inl rfl
  · exact .inr ⟨rfl, rfl⟩

/-- An operation makes the two slots one, or leaves both. -/
theorem Taken.act {a b : Slot} (taken : a.Taken b) (operation : KeyOperation) :
    (a.act operation).1 = (b.act operation).1 ∧
      ((a.act operation).2 = (b.act operation).2 ∨ (a.act operation).2 = a ∧ (b.act operation).2 = b) := by
  obtain ⟨committed, present, document⟩ := taken.alike
  cases operation with
  | put value mode => exact put_of_alike committed present value mode
  | putDocument document mode => exact put_of_alike committed present document.encode mode
  | remove =>
    dsimp only [Slot.act]
    rw [present]
    refine ⟨rfl, ?_⟩
    split
    · rw [committed]
      exact .inl rfl
    · exact .inr ⟨rfl, rfl⟩
  | edit edits =>
    dsimp only [Slot.act]
    rw [document]
    cases b.document? with
    | error error => exact ⟨rfl, .inr ⟨rfl, rfl⟩⟩
    | ok given =>
      cases given with
      | none => exact ⟨rfl, .inr ⟨rfl, rfl⟩⟩
      | some given =>
        dsimp only
        rw [committed]
        exact ⟨rfl, .inl rfl⟩

/-- What a commit writes for a key: nothing, a removal or a value. -/
def written? (slot : Slot) : Option (Option Bytes) := slot.staged.bind Pending.written?

theorem Taken.written? {a b : Slot} (taken : a.Taken b) :
    a.written? = b.written? ∨ ∃ bytes document, a.staged = some (.value bytes) ∧
      Handle.editableOf bytes = .ok document ∧ b.written? = some (some document.encode) := by
  cases taken with
  | same => exact .inl rfl
  | committed read =>
    have unchanged := (Handle.editableOf_ok_iff.mp read).2
    exact .inl (by simp [Slot.written?, Pending.written?, unchanged])
  | put committed read => exact .inr ⟨_, _, rfl, read, rfl⟩

theorem Taken.isSome_written? {a b : Slot} (taken : a.Taken b) : b.written?.isSome = a.written?.isSome := by
  obtain same | ⟨bytes, document, staged, -, wrote⟩ := taken.written?
  · rw [same]
  · rw [wrote, Slot.written?, staged]
    rfl

end Slot

namespace Handle

variable {handle : Handle} {key : Bytes}

theorem get?_slot (handle : Handle) (key : Bytes) :
    handle.get? key = (handle.slot key).written?.getD (handle.slot key).committed := by
  cases written : (handle.slot key).written? with
  | none =>
    refine get?_of_unwritten fun pending staged => ?_
    rw [Slot.written?, slot, staged] at written
    exact written
  | some value =>
    obtain ⟨pending, staged, wrote⟩ := Option.bind_eq_some_iff.mp written
    exact get?_of_written staged wrote

theorem mem_changes_slot {value : Option Bytes} :
    (⟨key, value⟩ : Change) ∈ handle.staged.changes ↔ (handle.slot key).written? = some value := by
  rw [Staging.mem_changes_iff, Slot.written?, Option.bind_eq_some_iff]
  rfl

theorem hasChanges_slot : handle.hasChanges = true ↔ ∃ key, (handle.slot key).written?.isSome = true := by
  rw [← Bool.not_eq_false, hasChanges_eq_false_iff]
  constructor
  · intro changed
    obtain ⟨change, mem⟩ := List.exists_mem_of_ne_nil _ changed
    exact ⟨change.key, by rw [mem_changes_slot.mp mem]; rfl⟩
  · rintro ⟨key, some⟩
    obtain ⟨value, written⟩ := Option.isSome_iff_exists.mp some
    exact List.ne_nil_of_mem (mem_changes_slot.mpr written)

theorem Refused.restaged {error : DatabaseError} (refused : Refused handle error) {staged : Staging}
    (same : staged.changes = handle.staged.changes) : Refused (handle.restaged staged) error := by
  cases refused with
  | access refused => exact .access refused
  | poisoned writable poisoned => exact .poisoned writable poisoned
  | tooLarge writable healthy changed build =>
    rw [← same] at changed build
    exact .tooLarge writable healthy changed build

theorem Attempted.restaged {pending : PendingCheckpoint} (attempted : Attempted handle pending) {staged : Staging}
    (same : staged.changes = handle.staged.changes) : Attempted (handle.restaged staged) pending := by
  obtain ⟨writable, healthy, changed, built⟩ := attempted
  rw [← same] at changed built
  exact ⟨writable, healthy, changed, built⟩

theorem advance_restaged {pending : PendingCheckpoint} {staged : Staging} (grounded : handle.Grounded)
    (attempted : Attempted handle pending) (same : staged.changes = handle.staged.changes)
    (addressable : (handle.advance pending).handle.image.size < 256 ^ 8) :
    ((handle.restaged staged).advance pending).result = (handle.advance pending).result ∧
      ((handle.restaged staged).advance pending).handle = (handle.advance pending).handle := by
  have size : ((handle.restaged staged).advance pending).handle.image = (handle.advance pending).handle.image := by
    rw [image_advance, image_advance]
    rfl
  have founded : (handle.restaged staged).Grounded := grounded.of_same rfl rfl rfl rfl rfl
  obtain ⟨advanced, answered, -⟩ := advance_of_attempted grounded attempted addressable
  obtain ⟨again, replied, -⟩ := advance_of_attempted founded (attempted.restaged same) (size ▸ addressable)
  rw [answered, replied, size, advanced, again,
    show (handle.restaged staged).staged.changes = handle.staged.changes from same]
  exact ⟨rfl, rfl⟩

/-- The value staged for a key is an object that is spelled otherwise than the encoder spells it. -/
structure Respells (handle : Handle) (key bytes : Bytes) (fields : Fields) : Prop where
  staged : handle.staged.get? key = some (.value bytes)
  decoded : Value.decode bytes = .ok (.object fields)
  otherwise : (Value.object fields).encode ≠ bytes

/-- Taking such a value for editing puts the encoder's spelling in its place. -/
theorem Respells.respelled {bytes : Bytes} {fields : Fields} (respells : handle.Respells key bytes fields) {after : Handle}
    (taken : after.slot key = ((handle.slot key).act (.edit [])).2) :
    (handle.get? key = some bytes ∧ ⟨key, some bytes⟩ ∈ handle.staged.changes) ∧
      after.get? key = some (Value.object fields).encode ∧
      ⟨key, some (Value.object fields).encode⟩ ∈ after.staged.changes := by
  obtain ⟨staged, decoded, -⟩ := respells
  have read : editableOf bytes = .ok ⟨fields, false⟩ := editableOf_ok_iff.mpr ⟨decoded, rfl⟩
  have held : (handle.slot key).staged = some (.value bytes) := staged
  have before : (handle.slot key).written? = some (some bytes) := by
    rw [Slot.written?, held]
    rfl
  have behind : (after.slot key).written? = some (some (Value.object fields).encode) := by
    rw [taken, Slot.act_edit_of_value held read]
    rfl
  rw [get?_slot, get?_slot, before, behind]
  exact ⟨⟨rfl, mem_changes_slot.mpr before⟩, rfl, mem_changes_slot.mpr behind⟩

/-- Two handles that differ at most in the bytes of one key. -/
structure SameBut (key : Bytes) (a b : Handle) : Prop where
  contains : ∀ other, a.contains other = b.contains other
  size : a.size = b.size
  hasChanges : a.hasChanges = b.hasChanges
  get : ∀ other, other ≠ key → a.get? other = b.get? other
  changes : ∀ other, other ≠ key → ∀ value, (⟨other, value⟩ : Change) ∈ a.staged.changes ↔ ⟨other, value⟩ ∈ b.staged.changes

theorem SameBut.of_taken {after : Handle} (index : after.index = handle.index)
    (taken : ∀ other, (handle.slot other).Taken (after.slot other))
    (apart : ∀ other, other ≠ key → after.slot other = handle.slot other) : SameBut key after handle := by
  have contains (other : Bytes) : after.contains other = handle.contains other := by
    rw [contains_slot, contains_slot, (taken other).alike.2.1]
  refine ⟨contains, size_of_contains index contains, ?_, fun other different => ?_, fun other different value => ?_⟩
  · rw [Bool.eq_iff_iff, hasChanges_slot, hasChanges_slot]
    simp only [(taken _).isSome_written?]
  · rw [get?_slot, get?_slot, apart other different]
  · rw [mem_changes_slot, mem_changes_slot, apart other different]

end Handle

namespace Session

open Handle MemoryStore

variable {a b session after : Session} {answer : Answer} {key : Bytes}

/-- Two sessions that differ in slots alone, and write the same for every key. -/
inductive Alike : Session → Session → Prop where
  | intro {handle : Handle} {store : MemoryStore} {staged : Staging}
      (taken : ∀ key, (handle.slot key).Taken ((handle.restaged staged).slot key))
      (written : ∀ key, (handle.slot key).written? = ((handle.restaged staged).slot key).written?) :
      Alike ⟨handle, store⟩ ⟨handle.restaged staged, store⟩

theorem Alike.of_slots (handles : b.handle = a.handle.restaged b.handle.staged) (stores : b.store = a.store)
    (slots : ∀ key, (a.handle.slot key).Taken (b.handle.slot key) ∧
      (a.handle.slot key).written? = (b.handle.slot key).written?) : a.Alike b := by
  obtain ⟨handle, store⟩ := a
  obtain ⟨other, place⟩ := b
  dsimp only at handles stores slots
  subst stores
  rw [handles] at slots ⊢
  exact .intro (fun key => (slots key).1) fun key => (slots key).2

theorem Alike.store (alike : a.Alike b) : b.store = a.store := by
  cases alike
  rfl

theorem Alike.refl (session : Session) : session.Alike session := .of_slots rfl rfl fun _ => ⟨.same _, rfl⟩

theorem Alike.step_on (alike : a.Alike b) (key : Bytes) (operation : KeyOperation) :
    a.reply (operation.on key) = b.reply (operation.on key) ∧
      (a.step (operation.on key)).2.Alike (b.step (operation.on key)).2 := by
  obtain @⟨handle, store, staged, taken, written⟩ := alike
  cases writable : handle.ensureWritable with
  | error error =>
    obtain ⟨reply, left⟩ := @step_on_of_refused ⟨handle, store⟩ _ writable key operation
    obtain ⟨again, right⟩ := @step_on_of_refused ⟨handle.restaged staged, store⟩ _ writable key operation
    rw [reply, again, left, right]
    exact ⟨rfl, .intro taken written⟩
  | ok done =>
    replace writable := ensureWritable_ok_iff.mp writable
    obtain ⟨reply, left⟩ := @Session.step_on ⟨handle, store⟩ writable key operation
    obtain ⟨again, right⟩ := @Session.step_on ⟨handle.restaged staged, store⟩ writable key operation
    obtain ⟨same, slots⟩ := (taken key).act operation
    rw [reply, again, left, right]
    refine ⟨same, .of_slots rfl rfl fun other => ?_⟩
    rw [slot_withSlot _ _ _ _ (Slot.committed_act _ operation), slot_withSlot _ _ _ _ (Slot.committed_act _ operation)]
    split
    · obtain one | ⟨before, behind⟩ := slots
      · rw [one]
        exact ⟨.same _, rfl⟩
      · rw [before, behind]
        exact ⟨taken key, written key⟩
    · exact ⟨taken other, written other⟩

/-- A commit goes by what it writes, and not by how that is staged. -/
theorem Alike.commit (alike : a.Alike b) (grounded : a.handle.access = .write → a.handle.Grounded)
    (addressable : (a.step .commit).2.handle.image.size < 256 ^ 8) :
    a.reply .commit = b.reply .commit ∧ (a.step .commit).2.Alike (b.step .commit).2 := by
  obtain @⟨handle, store, staged, taken, written⟩ := alike
  have same : staged.changes = handle.staged.changes := Staging.changes_congr fun key => (written key).symm
  unfold reply
  obtain ⟨error, refused⟩ | ⟨writable, healthy, nothing⟩ | ⟨pending, attempted⟩ :=
    handle.refused_or_unchanged_or_attempted
  · rw [step_commit_of_refused refused, step_commit_of_refused (refused.restaged same)]
    exact ⟨rfl, .intro taken written⟩
  · have unchanged : (handle.restaged staged).staged.changes = [] := same.trans nothing
    rw [step_commit_of_unchanged writable healthy nothing,
      @step_commit_of_unchanged (handle.restaged staged) writable healthy unchanged]
    exact ⟨rfl, .refl _⟩
  · have grounded := grounded attempted.writable
    have again := attempted.restaged same
    unfold step at addressable ⊢
    dsimp only at addressable ⊢
    rw [commit_eq_of_attempted again]
    rw [commit_eq_of_attempted attempted] at addressable ⊢
    rw [show (handle.restaged staged).settings = handle.settings from rfl]
    generalize appendCheckpoint device handle.settings.syncOnCommit pending store = appended at addressable ⊢
    obtain ⟨appended, left⟩ := appended
    cases appended with
    | ok done =>
      obtain ⟨answered, advanced⟩ := advance_restaged grounded attempted same addressable
      dsimp only
      rw [answered, advanced]
      exact ⟨rfl, .refl _⟩
    | error error =>
      dsimp only
      rw [show (handle.restaged staged).image = handle.image from rfl]
      unfold retreat
      split
      · exact ⟨rfl, .intro taken written⟩
      · exact ⟨rfl, .of_slots rfl rfl fun key => ⟨taken key, written key⟩⟩

theorem Alike.step (alike : a.Alike b) (grounded : a.handle.access = .write → a.handle.Grounded) (operation : Operation)
    (addressable : (a.step operation).2.handle.image.size < 256 ^ 8) :
    a.reply operation = b.reply operation ∧ (a.step operation).2.Alike (b.step operation).2 := by
  obtain ⟨key, staging, rfl⟩ | rfl | rfl := operation.cases_key
  · exact alike.step_on key staging
  · obtain @⟨handle, store, staged, -, -⟩ := alike
    exact ⟨rfl, .refl _⟩
  · exact alike.commit grounded addressable

theorem Alike.run (alike : a.Alike b) (valid : a.Valid) (operations : List Operation)
    (addressable : (a.run operations).handle.image.size < 256 ^ 8) :
    a.replies operations = b.replies operations ∧ (a.run operations).Alike (b.run operations) := by
  induction operations generalizing a b with
  | nil => exact ⟨rfl, alike⟩
  | cons operation rest ih =>
    have moved := step_moved valid.sound operation
    have between := Nat.lt_of_le_of_lt (size_mono (image_run (sound_of_moved valid.sound moved) rest)) addressable
    obtain ⟨reply, next⟩ := alike.step (fun _ => valid.grounded) operation between
    obtain ⟨replies, final⟩ := ih next (valid.of_moved moved between) addressable
    exact ⟨congrArg₂ List.cons reply replies, final⟩

theorem Alike.sameDocuments (alike : a.Alike b) (sound : a.handle.Sound) (alikeSound : b.handle.Sound) :
    b.handle.SameDocuments a.handle := by
  obtain @⟨handle, store, staged, taken, written⟩ := alike
  refine .of_get? alikeSound sound fun key => ?_
  rw [get?_slot, get?_slot, (taken key).alike.1, written key]

/-- Taking a document changes the slot of its key, and nothing else. -/
theorem step_edit_nothing (writable : session.handle.access = .write)
    (stepped : session.step (.edit key []) = (answer, after)) :
    after.handle = session.handle.restaged after.handle.staged ∧ after.store = session.store ∧
      (∀ other, (session.handle.slot other).Taken (after.handle.slot other)) ∧
      (∀ other, other ≠ key → after.handle.slot other = session.handle.slot other) ∧
      after.handle.slot key = ((session.handle.slot key).act (.edit [])).2 := by
  have slots (other : Bytes) := slot_step_on writable key other (.edit [])
  have left := (Session.step_on writable key (.edit [])).2
  rw [show KeyOperation.on key (.edit []) = .edit key [] from rfl, stepped] at slots left
  dsimp only at slots left
  refine ⟨left ▸ rfl, left ▸ rfl, fun other => ?_, fun other different => (slots other).trans (if_neg different),
    (slots key).trans (if_pos rfl)⟩
  rw [slots]
  split
  · rename_i same
    rw [same]
    exact Slot.taken_act_edit _
  · exact .same _

theorem alike_of_edit_nothing (writable : session.handle.access = .write)
    (stepped : session.step (.edit key []) = (answer, after))
    (canonical : ∀ bytes fields, ¬ session.handle.Respells key bytes fields) : session.Alike after := by
  obtain ⟨handles, stores, taken, apart, -⟩ := step_edit_nothing writable stepped
  refine .of_slots handles stores fun other => ⟨taken other, ?_⟩
  by_cases different : other = key
  · subst different
    obtain written | ⟨bytes, document, staged, read, wrote⟩ := (taken other).written?
    · exact written
    · -- the staged value is spelled as the encoder does
      obtain ⟨decoded, -⟩ := editableOf_ok_iff.mp read
      have spelled : document.encode = bytes := by
        by_contra otherwise
        exact canonical bytes document.fields ⟨staged, decoded, otherwise⟩
      rw [wrote, Slot.written?, staged, spelled]
      rfl
  · rw [apart other different]

/-- A document that is taken for editing and not edited leaves everything but the bytes of its key. Those too
are left, and every later reply and stored byte with them, exactly when no value is staged for the key that
spells its object otherwise than the encoder does; such a value is replaced by the encoder's spelling. -/
theorem taken_document_is_unchanged_iff (reachable : session.Reachable) (writable : session.handle.access = .write)
    (stepped : session.step (.edit key []) = (answer, after)) :
    SameBut key after.handle session.handle ∧ after.store = session.store ∧
      (∀ bytes fields, session.handle.Respells key bytes fields →
        (session.handle.get? key = some bytes ∧ ⟨key, some bytes⟩ ∈ session.handle.staged.changes) ∧
          after.handle.get? key = some (Value.object fields).encode ∧
          ⟨key, some (Value.object fields).encode⟩ ∈ after.handle.staged.changes) ∧
      ((∀ bytes fields, ¬ session.handle.Respells key bytes fields) ↔
        after.handle.SameDocuments session.handle ∧
          ∀ operations, (session.run operations).handle.image.size < 256 ^ 8 →
            after.replies operations = session.replies operations ∧
              (after.run operations).handle.SameDocuments (session.run operations).handle ∧
              (after.run operations).store = (session.run operations).store) := by
  obtain ⟨handles, stores, taken, apart, here⟩ := step_edit_nothing writable stepped
  have reached : after.Reachable := by
    have next := reachable.step (.edit key [])
    rwa [stepped] at next
  refine ⟨.of_taken (handles ▸ rfl) taken apart, stores, fun bytes fields respells => respells.respelled here,
    fun canonical => ?_, fun same bytes fields respells => ?_⟩
  · have alike := alike_of_edit_nothing writable stepped canonical
    refine ⟨alike.sameDocuments reachable.sound reached.sound, fun operations addressable => ?_⟩
    have within := Nat.lt_of_le_of_lt (size_mono (image_run reachable.sound operations)) addressable
    obtain ⟨replies, final⟩ := alike.run ((reachable.kept within).valid writable) operations addressable
    exact ⟨replies.symm, final.sameDocuments (reachable.run operations).sound (reached.run operations).sound, final.store⟩
  · obtain ⟨⟨read, -⟩, reread, -⟩ := respells.respelled here
    have agree := same.1.get key
    rw [read, reread] at agree
    exact respells.otherwise (Option.some.inj agree)

/-- The first commit of a database with pages of 512 bytes, in which one short value is to be written. -/
theorem first_commit {handle : Handle} {store : MemoryStore} (key : Bytes) (pending : Pending) {bytes : Bytes}
    (staged : handle = (new { pageSize := 512 }).restaged (KeyMap.empty.insert key pending))
    (written : pending.written? = some (some bytes)) (faultless : store.Faultless) (fits : Change.Fits ⟨key, some bytes⟩)
    (room : roundUp (512 + (Change.encode ⟨key, some bytes⟩).length + 40) 512 = 1024) :
    handle.get? key = some bytes ∧ ∃ committed : Session,
      (⟨handle, store⟩ : Session).step .commit = (.committed 1024, committed) ∧
        committed.handle.image.size = 1024 ∧ committed.handle.get? key = some bytes := by
  have valid : Settings.validate { pageSize := 512 } = .ok () := rfl
  have grounded : handle.Grounded := staged ▸ (grounded_new valid).of_same rfl rfl rfl rfl rfl
  have changes : handle.staged.changes = [⟨key, some bytes⟩] := staged ▸ Staging.changes_insert_empty key written
  have held : handle.staged.get? key = some pending := by
    rw [staged]
    exact (KeyMap.get?_insert _ _ _ _).trans (if_pos rfl)
  have read : handle.get? key = some bytes := get?_of_written held written
  have writable : handle.access = .write := staged ▸ rfl
  have healthy : handle.poisoned = false := staged ▸ rfl
  have total : roundUp (handle.image.size + (Change.encode ⟨key, some bytes⟩).length + 40) handle.pageSize = 1024 := by
    rw [show handle.image.size = 512 from staged ▸ size_newImage _, show handle.pageSize = 512 from staged ▸ rfl, room]
  obtain ⟨left, stepped, stop⟩ := @step_commit_of_change ⟨handle, store⟩ _ grounded writable healthy changes fits
    faultless (lt_of_eq_of_lt total (by decide))
  rw [total] at stepped stop
  obtain ⟨count, fit, -⟩ := attempted_spec (attempted_of_change writable healthy changes fits)
  refine ⟨read, _, stepped, stop, ?_⟩
  exact (grounded.get?_advanced count fit (lt_of_eq_of_lt stop (by decide))).trans read

/-- A document is put in a new database and taken for editing. -/
theorem run_put_edit (key : Bytes) {bytes : Bytes} {document : EditableDocument} (read : editableOf bytes = .ok document) :
    ∃ store : MemoryStore, store.Faultless ∧
      (create { pageSize := 512 } {}).run [.put key bytes .upsert]
        = ⟨(new { pageSize := 512 }).restaged (KeyMap.empty.insert key (.value bytes)), store⟩ ∧
      (((create { pageSize := 512 } {}).run [.put key bytes .upsert]).step (.edit key [])).2
        = ⟨(new { pageSize := 512 }).restaged (KeyMap.empty.insert key (.editable document.markChanged)), store⟩ := by
  have valid : Settings.validate { pageSize := 512 } = .ok () := rfl
  have faultless : (create { pageSize := 512 } {}).store.Faultless := plan_create valid rfl rfl rfl
  obtain ⟨store, started⟩ : ∃ store, create { pageSize := 512 } {} = ⟨new { pageSize := 512 }, store⟩ := ⟨_, rfl⟩
  rw [started] at faultless ⊢
  have ran : (⟨new { pageSize := 512 }, store⟩ : Session).run [.put key bytes .upsert]
      = ⟨(new { pageSize := 512 }).restaged (KeyMap.empty.insert key (.value bytes)), store⟩ := by
    rw [run, step_put rfl, run]
    rfl
  rw [ran]
  exact ⟨store, faultless, rfl, step_edit rfl store rfl read []⟩

/-- An empty object is put in the encoder's spelling, taken for editing and committed. -/
theorem plain_object_is_unchanged :
    ∃ session after : Session, ∃ answer,
      session = (create { pageSize := 512 } {}).run [.put [0x6b] [0x7b, 0x7d] .upsert] ∧
      session.step (.edit [0x6b] []) = (answer, after) ∧ after.handle.SameDocuments session.handle ∧
      after.replies [.commit] = session.replies [.commit] ∧
      (after.run [.commit]).handle.SameDocuments (session.run [.commit]).handle ∧
      (after.run [.commit]).store = (session.run [.commit]).store := by
  have decoded : Value.decode [0x7b, 0x7d] = .ok (.object []) := by cbv
  have read : editableOf [0x7b, 0x7d] = .ok ⟨[], false⟩ := editableOf_ok_iff.mpr ⟨decoded, rfl⟩
  have encoded : (Value.object []).encode = [0x7b, 0x7d] := by cbv
  have reachable : ((create { pageSize := 512 } {}).run [.put [0x6b] [0x7b, 0x7d] .upsert]).Reachable :=
    (Reachable.opened (opened_create rfl rfl rfl rfl)).run _
  obtain ⟨store, faultless, ran, -⟩ := run_put_edit [0x6b] read
  obtain ⟨-, committed, stepped, size, -⟩ :=
    first_commit [0x6b] (.value [0x7b, 0x7d]) rfl rfl faultless (by decide) (by decide)
  rw [ran] at reachable ⊢
  obtain ⟨answer, after, taken⟩ : ∃ answer after, (⟨(new { pageSize := 512 }).restaged
      (KeyMap.empty.insert [0x6b] (.value [0x7b, 0x7d])), store⟩ : Session).step (.edit [0x6b] []) = (answer, after) :=
    ⟨_, _, rfl⟩
  obtain ⟨-, -, -, canonical_iff⟩ := taken_document_is_unchanged_iff reachable rfl taken
  have canonical : ∀ bytes fields, ¬ ((new { pageSize := 512 }).restaged
      (KeyMap.empty.insert [0x6b] (.value [0x7b, 0x7d]))).Respells [0x6b] bytes fields := by
    rintro bytes fields ⟨staged, again, otherwise⟩
    have held : some (Pending.value [0x7b, 0x7d]) = some (.value bytes) :=
      ((KeyMap.get?_insert _ _ _ _).trans (if_pos rfl)).symm.trans staged
    obtain rfl := Pending.value.inj (Option.some.inj held)
    obtain rfl := Value.object.inj (Except.ok.inj (decoded.symm.trans again))
    exact otherwise encoded
  obtain ⟨same, later⟩ := canonical_iff.mp canonical
  refine ⟨_, after, answer, rfl, taken, same, later [.commit] ?_⟩
  rw [run, run, stepped, size]
  decide

/-- An empty object is put with a blank in it. Once it is taken for editing the blank is gone, and a commit
writes the object without it. -/
theorem blank_in_object_is_lost :
    ∃ session after one other : Session, ∃ answer,
      session = (create { pageSize := 512 } {}).run [.put [0x6b] [0x7b, 0x20, 0x7d] .upsert] ∧
      session.step (.edit [0x6b] []) = (answer, after) ∧
      session.handle.get? [0x6b] = some [0x7b, 0x20, 0x7d] ∧ after.handle.get? [0x6b] = some [0x7b, 0x7d] ∧
      session.step .commit = (.committed 1024, one) ∧ after.step .commit = (.committed 1024, other) ∧
      one.handle.get? [0x6b] = some [0x7b, 0x20, 0x7d] ∧ other.handle.get? [0x6b] = some [0x7b, 0x7d] := by
  have decoded : Value.decode [0x7b, 0x20, 0x7d] = .ok (.object []) := by cbv
  have read : editableOf [0x7b, 0x20, 0x7d] = .ok ⟨[], false⟩ := editableOf_ok_iff.mpr ⟨decoded, rfl⟩
  have encoded : (Value.object []).encode = [0x7b, 0x7d] := by cbv
  obtain ⟨store, faultless, ran, edited⟩ := run_put_edit [0x6b] read
  obtain ⟨before, one, stepped, -, kept⟩ :=
    first_commit [0x6b] (.value [0x7b, 0x20, 0x7d]) rfl rfl faultless (by decide) (by decide)
  have written : (Pending.editable (EditableDocument.markChanged ⟨[], false⟩)).written? = some (some [0x7b, 0x7d]) :=
    congrArg (fun bytes => some (some bytes)) encoded
  obtain ⟨behind, other, again, -, lost⟩ := first_commit [0x6b] _ rfl written faultless (by decide) (by decide)
  rw [ran] at edited ⊢
  exact ⟨_, ⟨_, store⟩, one, other, _, rfl, Prod.ext rfl edited, before, behind, stepped, again, kept, lost⟩

end Session
end CheckpointStore
