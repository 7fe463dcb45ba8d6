import CheckpointStore.Proofs.Tombstones

/-!
# What a commit writes

A handle says that it has changes exactly when its next commit appends a checkpoint. The checkpoint has
one block for each key with a staged value, removal or edited document, and all documents read after the
commit as they did before. A second commit has nothing left to write.
-/

namespace CheckpointStore

/-- What a commit writes for a staged change: a tombstone, a value, or the text of an edited document. -/
inductive Pending.Writes : Pending → Option Bytes → Prop where
  | removed : Writes .removed none
  | value (bytes : Bytes) : Writes (.value bytes) (some bytes)
  | edited {document : EditableDocument} (changed : document.changed = true) :
      Writes (.editable document) (some document.encode)

theorem Pending.writes_iff {pending : Pending} {value : Option Bytes} :
    pending.Writes value ↔ pending.written? = some value := by
  constructor
  · rintro (_ | bytes | changed)
    · rfl
    · rfl
    · exact if_pos changed
  · intro written
    cases pending with
    | removed =>
      obtain rfl := Option.some.inj written
      exact .removed
    | value bytes =>
      obtain rfl := Option.some.inj written
      exact .value bytes
    | editable document =>
      cases changed : document.changed with
      | true =>
        obtain rfl : some document.encode = value := by simpa [written?, changed] using written
        exact .edited changed
      | false => simp [written?, changed] at written

namespace Handle

variable {handle : Handle}

theorem hasChanges_eq_false_iff : handle.hasChanges = false ↔ handle.staged.changes = [] := by
  unfold hasChanges Staging.changes
  rw [List.any_eq_false, List.filterMap_eq_nil_iff]
  refine forall₂_congr fun (_, pending) _ => ?_
  dsimp only
  rw [pending.isWrite_eq, Bool.not_eq_true, Option.isSome_eq_false_iff, Option.isNone_iff_eq_none,
    Option.map_eq_none_iff]

/-- Two handles have the same documents, whichever way they are read. -/
structure SameDocuments (a b : Handle) : Prop where
  get : ∀ key, a.get? key = b.get? key
  contains : ∀ key, a.contains key = b.contains key
  size : a.size = b.size
  documents : a.documents = b.documents
  documentsFrom : ∀ start, a.documentsFrom start = b.documentsFrom start

theorem SameDocuments.of_get? {a b : Handle} (sound : a.Sound) (alike : b.Sound) (same : ∀ key, a.get? key = b.get? key) :
    a.SameDocuments b :=
  ⟨same, contains_congr sound alike same, size_congr sound alike same, documentsFrom_congr sound alike same [],
    documentsFrom_congr sound alike same⟩

end Handle

namespace Session

open Handle MemoryStore

variable {session after : Session} {answer : Answer} {checkpoint : Nat}

/-- No call fails that a commit makes. -/
def Spared (session : Session) : Prop :=
  ∀ pending, Attempted session.handle pending →
    (appendCheckpoint device session.handle.settings.syncOnCommit pending session.store).1 = .ok ()

theorem spared_of_faultless (faultless : session.store.Faultless) : session.Spared :=
  fun pending _ => (appendCheckpoint_of_faultless faultless _ pending).1

/-- A checkpoint was put behind the store, with one block for each key that has something to write. -/
structure Extends (session : Session) (checkpoint : Nat) (after : Session) : Prop where
  longer : session.store.image.size < checkpoint
  stored : ∃ bytes, after.store.image = session.store.image ++ Image.ofBytes bytes ∧ after.store.image.size = checkpoint
  history : after.handle.history = checkpoint :: session.handle.history
  blocks : ∃ trailer blocks, Trailer.readEndingAt after.store.image checkpoint session.handle.pageSize = .ok trailer ∧
    trailer.blocks after.store.image = .ok blocks ∧ (blocks.map fun block => block.change.key).Nodup ∧
    ∀ change, change ∈ blocks.map Block.change ↔
      ∃ pending, session.handle.staged.get? change.key = some pending ∧ pending.Writes change.value

/-- Behind a commit that had nothing to write, or has written it, there is nothing for another one. -/
theorem step_commit_of_staged_empty (writable : session.handle.access = .write)
    (healthy : session.handle.poisoned = false) (empty : session.handle.staged = KeyMap.empty) :
    session.step .commit = (.committed session.handle.checkpoint, session) := by
  have same : session.handle.restaged KeyMap.empty = session.handle := by
    rw [← empty]
    rfl
  have stepped := step_commit_of_unchanged writable healthy (by rw [empty]; rfl) session.store
  rwa [same] at stepped

theorem extends_of_appended {pending : PendingCheckpoint} {store : MemoryStore} (valid : session.Valid)
    (attempted : Attempted session.handle pending)
    (addressable : session.handle.image.size + pending.bytes.length < 256 ^ 8)
    (stored : store.image = session.store.image ++ Image.ofBytes pending.bytes) :
    session.Extends (session.handle.image.size + pending.bytes.length)
      ⟨session.handle.advanced session.handle.staged.changes, store⟩ := by
  obtain ⟨count, fit, rfl⟩ := attempted_spec attempted
  have before := valid.stored attempted.healthy
  have total := valid.grounded.length_laidOut session.handle.staged.changes
  have size := valid.grounded.size_advanced session.handle.staged.changes
  have image : store.image = (session.handle.advanced session.handle.staged.changes).image := by
    rw [stored, before]
    rfl
  rw [total] at addressable ⊢
  refine ⟨?_, ⟨_, stored, image ▸ size⟩, List.reverse_append, ?_⟩
  · have room := valid.grounded.room_laidOut session.handle.staged.changes
    rw [before]
    omega
  · obtain ⟨trailer, blocks, read, -, parsed, changes⟩ := valid.grounded.newest_advanced count fit (size ▸ addressable)
    refine ⟨trailer, blocks, image ▸ read, image ▸ parsed, ?_, fun change => ?_⟩
    · have distinct := session.handle.staged.nodup_changes
      rwa [← changes, List.map_map] at distinct
    · rw [changes, Staging.mem_changes_iff]
      simp only [Pending.writes_iff]

/-- If no call fails, a commit changes no reading and leaves nothing to write, unless what is staged is too
large for a checkpoint. It appends one exactly when there were changes, with a block for each of them. Without
changes it makes no call at all, and neither does a second commit. -/
theorem commit_settles (reachable : session.Reachable) (writable : session.handle.access = .write)
    (healthy : session.handle.poisoned = false) (spared : session.Spared)
    (stepped : session.step .commit = (answer, after)) (addressable : after.handle.image.size < 256 ^ 8) :
    after.handle.SameDocuments session.handle ∧
      (session.handle.Oversized → (∃ fault, answer = .failed (.storage (.tooLarge fault))) ∧ after = session) ∧
      (¬ session.handle.Oversized → ∃ checkpoint, answer = .committed checkpoint ∧ after.handle.hasChanges = false ∧
        (session.handle.hasChanges = true ↔ session.Extends checkpoint after) ∧
        (session.handle.hasChanges = false →
          checkpoint = session.handle.checkpoint ∧ after = ⟨session.handle.restaged KeyMap.empty, session.store⟩) ∧
        after.step .commit = (.committed checkpoint, after)) := by
  have moved := step_moved reachable.sound .commit
  have alike := sound_of_moved reachable.sound moved
  have within := size_mono (image_of_moved moved)
  rw [stepped] at alike within
  obtain nothing | ⟨large, fault, refused⟩ | ⟨fits, pending, attempted⟩ := commit_cases writable healthy
  · obtain ⟨unchanged, fits⟩ := nothing
    obtain ⟨rfl, rfl⟩ := Prod.mk.inj (stepped.symm.trans (step_commit_of_unchanged writable healthy unchanged _))
    have unannounced := hasChanges_eq_false_iff.mpr unchanged
    refine ⟨.of_get? alike reachable.sound (get?_of_changes_eq_nil unchanged), fun large => absurd large fits,
      fun _ => ⟨_, rfl, rfl, ?_, fun _ => ⟨rfl, rfl⟩, step_commit_of_staged_empty writable healthy rfl⟩⟩
    rw [unannounced]
    refine ⟨nofun, fun extended => ?_⟩
    -- the store is as it was, and cannot be longer
    obtain ⟨-, -, size⟩ := extended.stored
    exact absurd extended.longer (by rw [← size]; exact Nat.lt_irrefl _)
  · obtain ⟨rfl, rfl⟩ := Prod.mk.inj (stepped.symm.trans (step_commit_of_refused refused _))
    exact ⟨.of_get? alike alike fun _ => rfl, fun _ => ⟨⟨fault, rfl⟩, rfl⟩, fun fits => absurd large fits⟩
  · have valid : session.Valid := (reachable.kept (Nat.lt_of_le_of_lt within addressable)).valid writable
    obtain ⟨advanced, stored, -⟩ := commit_of_appended attempted (spared pending attempted)
    have room : session.handle.image.size + pending.bytes.length < 256 ^ 8 := by
      rw [← Image.size_ofBytes, ← Image.size_append, ← image_advance, ← advanced]
      rwa [show (commit device session.handle session.store).1.handle = after.handle from congrArg (·.2.handle) stepped]
    have extended := extends_of_appended valid attempted room stored
    obtain ⟨rfl, rfl⟩ := Prod.mk.inj
      (stepped.symm.trans (step_commit_of_appended valid.grounded attempted (spared pending attempted) room))
    obtain ⟨count, fit, built⟩ := attempted_spec attempted
    have checkpoint : session.handle.image.size + pending.bytes.length
        = (session.handle.advanced session.handle.staged.changes).checkpoint := by
      rw [built]
      exact valid.grounded.length_laidOut session.handle.staged.changes
    have announced : session.handle.hasChanges = true := by
      rw [← Bool.not_eq_false, hasChanges_eq_false_iff]
      exact attempted.changed
    refine ⟨.of_get? alike reachable.sound fun key => valid.grounded.get?_advanced count fit addressable,
      fun large => absurd large fits, fun _ => ⟨_, rfl, rfl, ⟨fun _ => extended, fun _ => announced⟩, ?_, ?_⟩⟩
    · rw [announced]
      exact nofun
    · rw [checkpoint]
      exact step_commit_of_staged_empty writable healthy rfl

/-- A second document is committed behind the first, and a third commit finds nothing to write. -/
theorem second_document_settles :
    ∃ session after : Session,
      session = (create { pageSize := 512 } {}).run [.put [0x61] [0x31] .upsert, .commit, .put [0x62] [0x32] .upsert] ∧
      session.handle.hasChanges = true ∧ session.step .commit = (.committed 1536, after) ∧ session.Extends 1536 after ∧
      after.handle.hasChanges = false ∧ after.handle.SameDocuments session.handle ∧
      after.handle.get? [0x62] = some [0x32] ∧ after.step .commit = (.committed 1536, after) := by
  obtain ⟨handle, store, ran, faultless, grounded, writable, healthy, bare, image, -, page, -⟩ :=
    one_committed (show Change.Fits ⟨[0x61], some [0x31]⟩ by decide) (by decide)
  have reachable : ((create { pageSize := 512 } {}).run
      [.put [0x61] [0x31] .upsert, .commit, .put [0x62] [0x32] .upsert]).Reachable :=
    (Reachable.opened (opened_create rfl rfl rfl rfl)).run _
  rw [show [Operation.put [0x61] [0x31] .upsert, .commit, .put [0x62] [0x32] .upsert]
    = [.put [0x61] [0x31] .upsert, .commit] ++ [.put [0x62] [0x32] .upsert] from rfl, run_append, ran, run,
    step_put writable, run, bare] at reachable ⊢
  generalize held : handle.restaged (KeyMap.empty.insert [0x62] (.value [0x32])) = next at reachable ⊢
  have changes : next.staged.changes = [⟨[0x62], some [0x32]⟩] := by
    rw [← held]
    exact Staging.changes_single [0x62] [0x32]
  have founded : next.Grounded := held ▸ grounded.of_same rfl rfl rfl rfl rfl
  have announced : next.hasChanges = true := by
    rw [← Bool.not_eq_false, hasChanges_eq_false_iff, changes]
    exact List.cons_ne_nil _ _
  have fits : ¬ next.Oversized := by
    rw [not_oversized_iff, changes]
    exact ⟨show 1 < PendingCheckpoint.countLimit by decide, by decide⟩
  have room : roundUp (next.image.size + (Change.encode ⟨[0x62], some [0x32]⟩).length + 40) next.pageSize = 1536 := by
    rw [show next.image.size = 1024 from held ▸ image, show next.pageSize = 512 from held ▸ page]
    decide
  obtain ⟨left, stepped, stop⟩ := @step_commit_of_change ⟨next, store⟩ _ founded
    (held ▸ writable) (held ▸ healthy) changes (by decide) faultless (lt_of_eq_of_lt room (by decide))
  rw [room] at stepped stop
  obtain ⟨same, -, settled⟩ := commit_settles reachable (held ▸ writable) (held ▸ healthy)
    (spared_of_faultless faultless) stepped (lt_of_eq_of_lt stop (by decide))
  obtain ⟨checkpoint, answered, nothing, extends_iff, -, again⟩ := settled fits
  obtain rfl := Answer.committed.inj answered
  have staged : next.staged.get? [0x62] = some (.value [0x32]) := by
    rw [← held]
    exact (KeyMap.get?_insert _ _ _ _).trans (if_pos rfl)
  have written : next.get? [0x62] = some [0x32] := get?_of_written staged rfl
  exact ⟨⟨next, store⟩, _, rfl, announced, stepped, extends_iff.mp announced, nothing, same,
    (same.get _).trans written, again⟩

end Session
end CheckpointStore
