import CheckpointStore.Proofs.Commits
import CheckpointStore.Proofs.Stages

/-!
# Sessions

A handle and the store it was opened on, under operations in any order and any plan of outcomes.
As long as the handle is not poisoned the store has the handle's image, and opening it again finds
what the handle holds. File sizes are words of eight bytes, which is all that is asked of a run.
-/

namespace CheckpointStore

inductive Operation where
  | put (key value : Bytes) (mode : PutMode)
  | putDocument (key : Bytes) (document : Value) (mode : PutMode)
  | remove (key : Bytes)
  /-- A document is taken under edit, edited and put back -/
  | edit (key : Bytes) (edits : List Edit)
  | revert
  | commit

def Operation.isCommit : Operation → Bool
  | .commit => true
  | _ => false

inductive Answer where
  | failed (error : DatabaseError)
  | applied (yes : Bool)
  | edited (document : Option EditableDocument)
  | done
  | committed (checkpoint : Nat)

def Answer.ofCommit : Except DatabaseError Nat → Answer
  | .ok checkpoint => .committed checkpoint
  | .error error => .failed error

/-- Whether the answer is an identifier other than this one. -/
def Answer.isNew (current : Nat) : Answer → Bool
  | .committed checkpoint => checkpoint != current
  | _ => false

/-- A handle and the store it commits to. -/
structure Session where
  handle : Handle
  store : MemoryStore

namespace Session

open Handle MemoryStore

def step (session : Session) : Operation → Answer × Session
  | .put key value mode =>
    match session.handle.put key value mode with
    | .error error => (.failed error, session)
    | .ok (yes, handle) => (.applied yes, { session with handle })
  | .putDocument key document mode =>
    match session.handle.putDocument key document mode with
    | .error error => (.failed error, session)
    | .ok (yes, handle) => (.applied yes, { session with handle })
  | .remove key =>
    match session.handle.remove key with
    | .error error => (.failed error, session)
    | .ok (yes, handle) => (.applied yes, { session with handle })
  | .edit key edits =>
    match session.handle.edit? key with
    | .error error => (.failed error, session)
    | .ok (none, handle) => (.edited none, { session with handle })
    | .ok (some document, handle) =>
      let document := edits.foldl Edit.apply document
      (.edited (some document), { session with handle := handle.putBack key document })
  | .revert => (.done, { session with handle := session.handle.revert.1 })
  | .commit =>
    let committed := commit device session.handle session.store
    (.ofCommit committed.1.result, ⟨committed.1.handle, committed.2⟩)

def run (session : Session) : List Operation → Session
  | [] => session
  | operation :: rest => run (session.step operation).2 rest

/-- Whether an operation appends a checkpoint: it is answered with an identifier that was not the
current one. -/
def appends (session : Session) (operation : Operation) : Bool :=
  (session.step operation).1.isNew session.handle.checkpoint

def appendsIn (session : Session) : List Operation → Bool
  | [] => false
  | operation :: rest => session.appends operation || appendsIn (session.step operation).2 rest

/-! ### What a step does -/

/-- Everything a step can answer and do to a session. -/
inductive Moved (session : Session) : Answer → Session → Prop where
  | restaged {answer : Answer} (staged : Staging) (sound : (session.handle.restaged staged).Sound)
      (old : answer.isNew session.handle.checkpoint = false) :
      Moved session answer ⟨session.handle.restaged staged, session.store⟩
  | committed {committed : Committed} {after : MemoryStore}
      (outcome : CommitOutcome session.handle session.store committed after) :
      Moved session (.ofCommit committed.result) ⟨committed.handle, after⟩

variable {session after : Session} {answer : Answer}

/-- Operations other than commits change what is staged, and leave the store alone. -/
theorem step_restaged (sound : session.handle.Sound) {operation : Operation} (plain : operation.isCommit = false) :
    ∃ staged, (session.step operation).2 = ⟨session.handle.restaged staged, session.store⟩ ∧
      (session.handle.restaged staged).Sound ∧ (session.step operation).1.isNew session.handle.checkpoint = false := by
  cases operation with
  | put key value mode =>
    unfold step
    dsimp only
    split
    · exact ⟨_, rfl, sound, rfl⟩
    · rename_i put
      obtain ⟨⟨staged, rfl⟩, kept, -⟩ := put_spec sound put
      exact ⟨staged, rfl, kept, rfl⟩
  | putDocument key document mode =>
    unfold step
    dsimp only
    split
    · exact ⟨_, rfl, sound, rfl⟩
    · rename_i put
      obtain ⟨⟨staged, rfl⟩, kept, -⟩ := put_spec sound put
      exact ⟨staged, rfl, kept, rfl⟩
  | remove key =>
    unfold step
    dsimp only
    split
    · exact ⟨_, rfl, sound, rfl⟩
    · rename_i removed
      obtain ⟨⟨staged, rfl⟩, kept, -⟩ := remove_spec sound removed
      exact ⟨staged, rfl, kept, rfl⟩
  | edit key edits =>
    unfold step
    dsimp only
    split
    · exact ⟨_, rfl, sound, rfl⟩
    · rename_i taken
      obtain ⟨⟨staged, rfl⟩, kept, -⟩ := edit?_spec sound taken
      exact ⟨staged, rfl, kept, rfl⟩
    · rename_i taken
      obtain ⟨⟨staged, rfl⟩, kept, backed⟩ := edit?_spec sound taken
      exact ⟨_, rfl, kept.putBack edits (backed _ rfl), rfl⟩
  | revert => exact ⟨KeyMap.empty, rfl, Sound.of_staged_empty rfl, rfl⟩
  | commit => contradiction

theorem step_moved (sound : session.handle.Sound) (operation : Operation) :
    Moved session (session.step operation).1 (session.step operation).2 := by
  cases plain : operation.isCommit with
  | false =>
    obtain ⟨staged, stepped, kept, old⟩ := step_restaged sound plain
    rw [stepped]
    exact .restaged staged kept old
  | true =>
    cases operation with
    | commit => exact .committed (commit_outcome session.handle session.store)
    | _ => contradiction

theorem step_put {handle : Handle} (writable : handle.access = .write) (store : MemoryStore) (key value : Bytes) :
    ((⟨handle, store⟩ : Session).step (.put key value .upsert)).2
      = ⟨handle.restaged (handle.staged.insert key (.value value)), store⟩ := by
  unfold step Handle.put
  simp only [ensureWritable_ok_iff.mpr writable, PutMode.allows, if_true]
  rfl

theorem step_remove {handle : Handle} {key : Bytes} (writable : handle.access = .write)
    (committed : handle.index.contains key = true) (unstaged : handle.staged.get? key = none) (store : MemoryStore) :
    ((⟨handle, store⟩ : Session).step (.remove key)).2 = ⟨handle.restaged (handle.staged.insert key .removed), store⟩ := by
  unfold step Handle.remove Handle.contains
  simp only [ensureWritable_ok_iff.mpr writable, unstaged, committed, Bool.true_eq_false, if_false, if_true]
  rfl

theorem step_commit (handle : Handle) (store : MemoryStore) :
    ((⟨handle, store⟩ : Session).step .commit).2
      = ⟨(commit device handle store).1.handle, (commit device handle store).2⟩ := rfl

theorem appends_commit (handle : Handle) (store : MemoryStore) :
    (⟨handle, store⟩ : Session).appends .commit
      = (Answer.ofCommit (commit device handle store).1.result).isNew handle.checkpoint := rfl

theorem run_commit (handle : Handle) (store : MemoryStore) :
    ((⟨handle, store⟩ : Session).run [.commit]).handle = (commit device handle store).1.handle := rfl

theorem run_append (session : Session) (first later : List Operation) :
    session.run (first ++ later) = (session.run first).run later := by
  induction first generalizing session with
  | nil => rfl
  | cons operation rest ih => exact ih _

/-! ### What a session keeps -/

theorem sound_of_moved (sound : session.handle.Sound) (moved : Moved session answer after) : after.handle.Sound := by
  cases moved with
  | restaged staged kept old => exact kept
  | committed outcome =>
    cases outcome with
    | refused events cause => exact sound
    | skipped events writable healthy nothing => exact Sound.of_staged_empty rfl
    | appended attempted image => exact sound_advance sound _
    | cut events attempted split image => exact sound
    | stuck events attempted split image => exact sound

theorem image_of_moved (moved : Moved session answer after) : session.handle.image.bytes <+: after.handle.image.bytes := by
  cases moved with
  | restaged staged kept old => exact List.prefix_rfl
  | committed outcome =>
    cases outcome with
    | refused events cause => exact List.prefix_rfl
    | skipped events writable healthy nothing => exact List.prefix_rfl
    | appended attempted image =>
      dsimp only
      rw [image_advance, Image.bytes_append]
      exact List.prefix_append _ _
    | cut events attempted split image => exact List.prefix_rfl
    | stuck events attempted split image => exact List.prefix_rfl

/-- The handle holds what its image says, and unless it is poisoned the store has that image. -/
structure Valid (session : Session) : Prop where
  grounded : session.handle.Grounded
  sound : session.handle.Sound
  stored : session.handle.poisoned = false → session.store.image = session.handle.image

/-- What a step preserves. -/
theorem Valid.of_moved (valid : session.Valid) (moved : Moved session answer after)
    (addressable : after.handle.image.size < 256 ^ 8) : after.Valid := by
  obtain ⟨grounded, sound, stored⟩ := valid
  have kept := sound_of_moved sound moved
  cases moved with
  | restaged staged sound old => exact ⟨grounded.of_same rfl rfl rfl rfl rfl, kept, stored⟩
  | committed outcome =>
    cases outcome with
    | refused events cause => exact ⟨grounded, kept, stored⟩
    | skipped events writable healthy nothing => exact ⟨grounded.of_same rfl rfl rfl rfl rfl, kept, stored⟩
    | appended attempted image =>
      obtain ⟨same, -, advanced⟩ := advance_of_attempted grounded attempted addressable
      refine ⟨same ▸ advanced, kept, fun _ => ?_⟩
      dsimp only
      rw [image, image_advance, stored attempted.healthy]
    | cut events attempted split image =>
      refine ⟨grounded, kept, ?_⟩
      intro healthy
      dsimp only
      rw [image, stored healthy]
      refine Image.ext ?_
      rw [Image.bytes_take, Image.bytes_append, ← Image.length_bytes, List.take_left]
    | stuck events attempted split image => exact ⟨grounded.of_same rfl rfl rfl rfl rfl, kept, nofun⟩

theorem sound_run (sound : session.handle.Sound) (operations : List Operation) :
    (session.run operations).handle.Sound := by
  induction operations generalizing session with
  | nil => exact sound
  | cons operation rest ih => exact ih (sound_of_moved sound (step_moved sound operation))

theorem image_run (sound : session.handle.Sound) (operations : List Operation) :
    session.handle.image.bytes <+: (session.run operations).handle.image.bytes := by
  induction operations generalizing session with
  | nil => exact List.prefix_rfl
  | cons operation rest ih =>
    have moved := step_moved sound operation
    exact (image_of_moved moved).trans (ih (sound_of_moved sound moved))

theorem size_mono {a b : Image} (before : a.bytes <+: b.bytes) : a.size ≤ b.size := by
  rw [← Image.length_bytes, ← Image.length_bytes]
  exact before.length_le

/-- What a run preserves. -/
theorem Valid.run (valid : session.Valid) (operations : List Operation)
    (addressable : (session.run operations).handle.image.size < 256 ^ 8) : (session.run operations).Valid := by
  induction operations generalizing session with
  | nil => exact valid
  | cons operation rest ih =>
    have moved := step_moved valid.sound operation
    -- images only grow, so no image of the run is longer than the last
    have later := size_mono (image_run (sound_of_moved valid.sound moved) rest)
    exact ih (valid.of_moved moved (Nat.lt_of_le_of_lt later addressable)) addressable

/-! ### What commits answer -/

theorem step_commit_of_unchanged {handle : Handle} (writable : handle.access = .write) (healthy : handle.poisoned = false)
    (nothing : handle.staged.changes = []) (store : MemoryStore) :
    (⟨handle, store⟩ : Session).step .commit
      = (.committed handle.checkpoint, ⟨handle.restaged KeyMap.empty, store⟩) := by
  obtain ⟨answered, left, stored⟩ := commit_of_unchanged writable healthy nothing store
  unfold step
  dsimp only
  rw [answered, left, stored]
  rfl

theorem step_commit_of_refused {handle : Handle} {error : DatabaseError} (refused : Refused handle error)
    (store : MemoryStore) : (⟨handle, store⟩ : Session).step .commit = (.failed error, ⟨handle, store⟩) := by
  obtain ⟨answered, left, stored⟩ := commit_of_refused refused store
  unfold step
  dsimp only
  rw [answered, left, stored]
  rfl

/-- A commit whose append succeeds is answered with the new end of the file. -/
theorem step_commit_of_appended {pending : PendingCheckpoint} (grounded : session.handle.Grounded)
    (attempted : Attempted session.handle pending)
    (appended : (appendCheckpoint device session.handle.settings.syncOnCommit pending session.store).1 = .ok ())
    (addressable : session.handle.image.size + pending.bytes.length < 256 ^ 8) :
    session.step .commit = (.committed (session.handle.image.size + pending.bytes.length),
      ⟨session.handle.advanced session.handle.staged.changes, (commit device session.handle session.store).2⟩) := by
  have size : (session.handle.advance pending).handle.image.size = session.handle.image.size + pending.bytes.length := by
    rw [image_advance, Image.size_append, Image.size_ofBytes]
  obtain ⟨tried, -, -⟩ := commit_of_appended attempted appended
  obtain ⟨same, granted, -⟩ := advance_of_attempted grounded attempted (size ▸ addressable)
  rw [size] at granted
  unfold step
  dsimp only
  rw [tried, granted, same]
  rfl

/-- Without faults every commit that comes to its append is answered so. -/
theorem step_commit_of_attempted {pending : PendingCheckpoint} (grounded : session.handle.Grounded)
    (attempted : Attempted session.handle pending) (faultless : session.store.Faultless)
    (addressable : session.handle.image.size + pending.bytes.length < 256 ^ 8) :
    session.step .commit = (.committed (session.handle.image.size + pending.bytes.length),
      ⟨session.handle.advanced session.handle.staged.changes, (commit device session.handle session.store).2⟩) :=
  step_commit_of_appended grounded attempted (appendCheckpoint_of_faultless faultless _ pending).1 addressable

/-- With one change to write, that is the next page boundary behind its block and the trailer. -/
theorem step_commit_of_change {change : Change} (grounded : session.handle.Grounded)
    (writable : session.handle.access = .write) (healthy : session.handle.poisoned = false)
    (changes : session.handle.staged.changes = [change]) (fits : change.Fits) (faultless : session.store.Faultless)
    (addressable : roundUp (session.handle.image.size + change.encode.length + 40) session.handle.pageSize < 256 ^ 8) :
    ∃ store, session.step .commit
        = (.committed (roundUp (session.handle.image.size + change.encode.length + 40) session.handle.pageSize),
          ⟨session.handle.advanced session.handle.staged.changes, store⟩) ∧
      (session.handle.advanced session.handle.staged.changes).image.size
        = roundUp (session.handle.image.size + change.encode.length + 40) session.handle.pageSize := by
  have attempted := attempted_of_change writable healthy changes fits
  have stop : (session.handle.laidOut session.handle.staged.changes).trailer.checkpointSize
      = roundUp (session.handle.image.size + change.encode.length + 40) session.handle.pageSize := by
    rw [changes, ← List.flatMap_singleton Change.encode change]
    rfl
  have total := grounded.length_laidOut session.handle.staged.changes
  rw [stop] at total
  have stepped := step_commit_of_attempted grounded attempted faultless (total ▸ addressable)
  rw [total] at stepped
  exact ⟨_, stepped, (grounded.size_advanced _).trans stop⟩

end Session
end CheckpointStore
