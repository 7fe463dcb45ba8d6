import CheckpointStore.Handle.Commit
import CheckpointStore.Proofs.Contents
import CheckpointStore.Proofs.Stores

/-!
# Commits to a store

Everything a commit can come to under any plan of outcomes: it is refused, has nothing to write,
appends a checkpoint, cuts a failed append off again, or leaves the handle poisoned. Without
faults only the build can refuse a commit that has something to write.
-/

namespace CheckpointStore
namespace Handle

open MemoryStore

variable {store : MemoryStore} {handle : Handle} {pending : PendingCheckpoint} {sync : Bool}

/-! ### Appending -/

theorem syncIf_run (store : MemoryStore) (wanted : Bool) : (syncIf device wanted store).2.image = store.image := by
  cases wanted <;> rfl

theorem appendDurably_run (store : MemoryStore) (sync : Bool) (bytes : Bytes) :
    ∃ part rest, bytes = part ++ rest ∧
      (appendDurably device sync bytes store).2.image = store.image ++ Image.ofBytes part ∧
      ((appendDurably device sync bytes store).1 = .ok () → rest = []) := by
  obtain ⟨part, rest, split, written, whole⟩ := MemoryStore.append_run store bytes
  refine ⟨part, rest, split, ?_, ?_⟩
  · unfold appendDurably
    simp only [run_bind]
    cases appended : (device.append bytes store).1 with
    | error error => exact written
    | ok done => exact (syncIf_run _ sync).trans written
  · intro succeeded
    unfold appendDurably at succeeded
    simp only [run_bind] at succeeded
    cases appended : (device.append bytes store).1 with
    | error error => simp [appended, run_pure] at succeeded
    | ok done => exact whole appended

/-- Appending a checkpoint writes the first of its bytes, and all of them when it succeeds. -/
theorem appendCheckpoint_run (store : MemoryStore) (sync : Bool) (pending : PendingCheckpoint) :
    ∃ part rest, pending.bytes = part ++ rest ∧
      (appendCheckpoint device sync pending store).2.image = store.image ++ Image.ofBytes part ∧
      ((appendCheckpoint device sync pending store).1 = .ok () → rest = []) := by
  obtain ⟨blocks, missing, split, written, whole⟩ := appendDurably_run store sync pending.blocks
  unfold appendCheckpoint
  simp only [run_bind]
  rw [show (device.reach .commitBeforeBlocks store).2 = store from rfl]
  cases appended : (appendDurably device sync pending.blocks store).1 with
  | error error =>
    refine ⟨blocks, missing ++ pending.tail, ?_, written, nofun⟩
    rw [PendingCheckpoint.bytes, split, List.append_assoc]
  | ok done =>
    obtain rfl := whole appended
    obtain ⟨tail, rest, parts, wrote, all⟩ :=
      appendDurably_run (appendDurably device sync pending.blocks store).2 sync pending.tail
    refine ⟨pending.blocks ++ tail, rest, ?_, ?_, all⟩
    · rw [PendingCheckpoint.bytes, parts, List.append_assoc]
    · refine wrote.trans (Image.ext ?_)
      rw [written, split, List.append_nil]
      simp

theorem appendCheckpoint_of_faultless (faultless : store.Faultless) (sync : Bool) (pending : PendingCheckpoint) :
    (appendCheckpoint device sync pending store).1 = .ok () ∧
      (appendCheckpoint device sync pending store).2.Faultless := by
  have durably : ∀ (store : MemoryStore) bytes, store.Faultless →
      (appendDurably device sync bytes store).1 = .ok () ∧ (appendDurably device sync bytes store).2.Faultless := by
    intro store bytes faultless
    obtain ⟨appended, -, later⟩ := faultless.append bytes
    replace appended : (device.append bytes store).1 = .ok () := appended
    unfold appendDurably
    simp only [run_bind, appended]
    cases sync with
    | false => exact ⟨rfl, later⟩
    | true => exact MemoryStore.Faultless.sync later
  obtain ⟨blocks, later⟩ := durably store pending.blocks faultless
  unfold appendCheckpoint
  simp only [run_bind]
  rw [show (device.reach .commitBeforeBlocks store).2 = store from rfl, blocks]
  exact durably _ pending.tail later

theorem truncates_appendDurably (store : MemoryStore) (sync : Bool) (bytes : Bytes) :
    (appendDurably device sync bytes store).2.plan.truncates = store.plan.truncates := by
  unfold appendDurably
  simp only [run_bind]
  cases (device.append bytes store).1 with
  | error error => rfl
  | ok done => cases sync <;> rfl

theorem truncates_appendCheckpoint (store : MemoryStore) (sync : Bool) (pending : PendingCheckpoint) :
    (appendCheckpoint device sync pending store).2.plan.truncates = store.plan.truncates := by
  unfold appendCheckpoint
  simp only [run_bind]
  have blocks := truncates_appendDurably store sync pending.blocks
  rw [show (device.reach .commitBeforeBlocks store).2 = store from rfl]
  cases (appendDurably device sync pending.blocks store).1 with
  | error error => exact blocks
  | ok done => exact (truncates_appendDurably _ sync pending.tail).trans blocks

/-! ### Committing -/

/-- A commit that comes to its append. -/
structure Attempted (handle : Handle) (pending : PendingCheckpoint) : Prop where
  writable : handle.access = .write
  healthy : handle.poisoned = false
  changed : handle.staged.changes ≠ []
  built : PendingCheckpoint.build handle.image.size handle.pageSize handle.current handle.staged.changes = .ok pending

/-- Why a commit is refused before it comes to its append. -/
inductive Refused (handle : Handle) : DatabaseError → Prop where
  | access {error : DatabaseError} (refused : handle.ensureWritable = .error error) : Refused handle error
  | poisoned (writable : handle.access = .write) (poisoned : handle.poisoned = true) :
      Refused handle (.poisoned handle.location handle.checkpoint)
  | tooLarge {error : StorageError} (writable : handle.access = .write) (healthy : handle.poisoned = false)
      (changed : handle.staged.changes ≠ [])
      (build : PendingCheckpoint.build handle.image.size handle.pageSize handle.current handle.staged.changes
        = .error error) : Refused handle (.storage error)

/-- Everything a commit to a store can come to. -/
inductive CommitOutcome (handle : Handle) (store : MemoryStore) : Committed → MemoryStore → Prop where
  | refused {error : DatabaseError} (events : List Event) (cause : Refused handle error) :
      CommitOutcome handle store ⟨handle, .error error, events⟩ store
  | skipped (events : List Event) (writable : handle.access = .write) (healthy : handle.poisoned = false)
      (nothing : handle.staged.changes = []) :
      CommitOutcome handle store ⟨{ handle with staged := KeyMap.empty }, .ok handle.checkpoint, events⟩ store
  | appended {pending : PendingCheckpoint} {after : MemoryStore} (attempted : Attempted handle pending)
      (image : after.image = store.image ++ Image.ofBytes pending.bytes) :
      CommitOutcome handle store (handle.advance pending) after
  | cut {pending : PendingCheckpoint} {after : MemoryStore} {part rest : Bytes} {error : StorageError}
      (events : List Event) (attempted : Attempted handle pending) (split : pending.bytes = part ++ rest)
      (image : after.image = (store.image ++ Image.ofBytes part).take handle.image.size) :
      CommitOutcome handle store ⟨handle, .error (.storage error), events⟩ after
  | stuck {pending : PendingCheckpoint} {after : MemoryStore} {part rest : Bytes} {error : StorageError}
      (events : List Event) (attempted : Attempted handle pending) (split : pending.bytes = part ++ rest)
      (image : after.image = store.image ++ Image.ofBytes part) :
      CommitOutcome handle store ⟨{ handle with poisoned := true }, .error (.storage error), events⟩ after

theorem ensureWritable_ok_iff : handle.ensureWritable = .ok () ↔ handle.access = .write := by
  unfold ensureWritable
  cases handle.access <;> simp

/-- A commit that comes to its append advances past it, or cuts it off and retreats. -/
theorem commit_eq_of_attempted (attempted : Attempted handle pending) (store : MemoryStore) :
    commit device handle store =
      let after := (appendCheckpoint device handle.settings.syncOnCommit pending store).2
      match (appendCheckpoint device handle.settings.syncOnCommit pending store).1 with
      | .ok () => (handle.advance pending, after)
      | .error error =>
        (handle.retreat handle.staged.changes.length error (after.truncate handle.image.size).1,
          (after.truncate handle.image.size).2) := by
  obtain ⟨writable, healthy, changed, built⟩ := attempted
  have some : handle.staged.changes.isEmpty = false := List.isEmpty_eq_false_iff.mpr changed
  unfold commit
  simp only [ensureWritable_ok_iff.mpr writable, healthy, some, built]
  simp only [Bool.false_eq_true, if_false, run_bind]
  cases (appendCheckpoint device handle.settings.syncOnCommit pending store).1 with
  | error error => rfl
  | ok done => rfl

theorem commit_outcome (handle : Handle) (store : MemoryStore) :
    CommitOutcome handle store (commit device handle store).1 (commit device handle store).2 := by
  unfold commit
  cases writable : handle.ensureWritable with
  | error error => exact .refused [] (.access writable)
  | ok done =>
    replace writable := ensureWritable_ok_iff.mp writable
    dsimp only
    split
    · rename_i poisoned
      exact .refused [] (.poisoned writable poisoned)
    · rename_i healthy
      rw [Bool.not_eq_true] at healthy
      split
      · rename_i nothing
        exact .skipped _ writable healthy (List.isEmpty_iff.mp nothing)
      · rename_i some
        have changed : handle.staged.changes ≠ [] := fun nothing => some (by rw [nothing]; rfl)
        cases built : PendingCheckpoint.build handle.image.size handle.pageSize handle.current handle.staged.changes with
        | error error => exact .refused _ (.tooLarge writable healthy changed built)
        | ok pending =>
          have attempted : Attempted handle pending := ⟨writable, healthy, changed, built⟩
          obtain ⟨part, rest, split, image, whole⟩ :=
            appendCheckpoint_run store handle.settings.syncOnCommit pending
          simp only [run_bind]
          cases appended : (appendCheckpoint device handle.settings.syncOnCommit pending store).1 with
          | ok done =>
            obtain rfl := whole appended
            rw [List.append_nil] at split
            exact .appended attempted (split ▸ image)
          | error error =>
            simp only [run_bind]
            have cut := MemoryStore.truncate_run (appendCheckpoint device handle.settings.syncOnCommit pending store).2
              handle.image.size
            rw [image] at cut
            cases answered : (device.truncate handle.image.size
                (appendCheckpoint device handle.settings.syncOnCommit pending store).2).1 with
            | ok done => exact .cut _ attempted split (cut.trans (if_pos answered))
            | error failure =>
              refine .stuck _ attempted split (cut.trans (if_neg ?_))
              exact fun succeeded => nomatch answered.symm.trans succeeded

theorem commit_of_refused {error : DatabaseError} (refused : Refused handle error) (store : MemoryStore) :
    (commit device handle store).1.result = .error error ∧ (commit device handle store).1.handle = handle ∧
      (commit device handle store).2 = store := by
  unfold commit
  cases refused with
  | access refused =>
    simp only [refused]
    exact ⟨rfl, rfl, rfl⟩
  | poisoned writable poisoned =>
    simp only [ensureWritable_ok_iff.mpr writable, poisoned, if_true]
    exact ⟨rfl, rfl, rfl⟩
  | tooLarge writable healthy changed build =>
    have some : handle.staged.changes.isEmpty = false := List.isEmpty_eq_false_iff.mpr changed
    simp only [ensureWritable_ok_iff.mpr writable, healthy, some, build]
    exact ⟨rfl, rfl, rfl⟩

theorem commit_of_unchanged (writable : handle.access = .write) (healthy : handle.poisoned = false)
    (nothing : handle.staged.changes = []) (store : MemoryStore) :
    (commit device handle store).1.result = .ok handle.checkpoint ∧
      (commit device handle store).1.handle = { handle with staged := KeyMap.empty } ∧
      (commit device handle store).2 = store := by
  unfold commit
  simp only [ensureWritable_ok_iff.mpr writable, healthy, nothing]
  exact ⟨rfl, rfl, rfl⟩

/-- More changes are to be written than a checkpoint can count, or one that no block can hold. -/
def Oversized (handle : Handle) : Prop :=
  PendingCheckpoint.countLimit ≤ handle.staged.changes.length ∨ ∃ change ∈ handle.staged.changes, ¬ change.Fits

theorem not_oversized_iff :
    ¬ handle.Oversized ↔
      handle.staged.changes.length < PendingCheckpoint.countLimit ∧ ∀ change ∈ handle.staged.changes, change.Fits := by
  simp [Oversized]

/-- Every commit of a handle that takes commits has nothing to write, is too large, or comes to its append. -/
theorem commit_cases (writable : handle.access = .write) (healthy : handle.poisoned = false) :
    handle.staged.changes = [] ∧ ¬ handle.Oversized ∨
      (handle.Oversized ∧ ∃ fault, Refused handle (.storage (.tooLarge fault))) ∨
        ¬ handle.Oversized ∧ ∃ pending, Attempted handle pending := by
  by_cases nothing : handle.staged.changes = []
  · refine .inl ⟨nothing, not_oversized_iff.mpr ⟨?_, ?_⟩⟩
    · rw [nothing]
      decide
    · rw [nothing]
      exact nofun
  · by_cases large : handle.Oversized
    · cases built : PendingCheckpoint.build handle.image.size handle.pageSize handle.current handle.staged.changes with
      | ok pending =>
        obtain ⟨count, fit, -⟩ := PendingCheckpoint.build_ok_iff.mp built
        exact absurd large (not_oversized_iff.mpr ⟨count, fit⟩)
      | error error =>
        obtain ⟨fault, rfl⟩ := PendingCheckpoint.build_error built
        exact .inr (.inl ⟨large, fault, .tooLarge writable healthy nothing built⟩)
    · obtain ⟨count, fit⟩ := not_oversized_iff.mp large
      exact .inr (.inr ⟨large, _, writable, healthy, nothing, PendingCheckpoint.build_ok_iff.mpr ⟨count, fit, rfl⟩⟩)

theorem refused_or_unchanged_or_attempted (handle : Handle) :
    (∃ error, Refused handle error) ∨
      (handle.access = .write ∧ handle.poisoned = false ∧ handle.staged.changes = []) ∨
        ∃ pending, Attempted handle pending := by
  cases access : handle.ensureWritable with
  | error error => exact .inl ⟨error, .access access⟩
  | ok done =>
    have writable := ensureWritable_ok_iff.mp access
    cases healthy : handle.poisoned with
    | true => exact .inl ⟨_, .poisoned writable healthy⟩
    | false =>
      obtain ⟨nothing, -⟩ | ⟨-, fault, refused⟩ | ⟨-, attempted⟩ := commit_cases writable healthy
      · exact .inr (.inl ⟨writable, rfl, nothing⟩)
      · exact .inl ⟨_, refused⟩
      · exact .inr (.inr attempted)

theorem commit_of_appended (attempted : Attempted handle pending)
    (appended : (appendCheckpoint device handle.settings.syncOnCommit pending store).1 = .ok ()) :
    (commit device handle store).1 = handle.advance pending ∧
      (commit device handle store).2.image = store.image ++ Image.ofBytes pending.bytes ∧
      (commit device handle store).2 = (appendCheckpoint device handle.settings.syncOnCommit pending store).2 := by
  obtain ⟨part, rest, split, image, whole⟩ := appendCheckpoint_run store handle.settings.syncOnCommit pending
  obtain rfl := whole appended
  rw [List.append_nil] at split
  rw [commit_eq_of_attempted attempted, appended]
  exact ⟨rfl, split ▸ image, rfl⟩

/-- Without faults a commit that comes to its append succeeds with it. -/
theorem commit_of_attempted (attempted : Attempted handle pending) (faultless : store.Faultless) :
    (commit device handle store).1 = handle.advance pending ∧
      (commit device handle store).2.image = store.image ++ Image.ofBytes pending.bytes ∧
      (commit device handle store).2.Faultless := by
  obtain ⟨appended, later⟩ := appendCheckpoint_of_faultless faultless handle.settings.syncOnCommit pending
  obtain ⟨committed, image, left⟩ := commit_of_appended attempted appended
  exact ⟨committed, image, left ▸ later⟩

theorem appendCheckpoint_of_torn (append : (nextOutcome store.plan.appends).1 ≠ .succeed) (sync : Bool)
    (pending : PendingCheckpoint) :
    appendCheckpoint device sync pending store = (.error (refusal "append"), (store.append pending.blocks).2) := by
  have failed : (device.append pending.blocks store).1 = .error (refusal "append") := by
    show answer "append" () (nextOutcome store.plan.appends).1 = _
    cases outcome : (nextOutcome store.plan.appends).1 with
    | succeed => contradiction
    | fail => rfl
    | short count => rfl
  unfold appendCheckpoint appendDurably
  simp only [run_bind]
  rw [show (device.reach .commitBeforeBlocks store).2 = store from rfl]
  simp only [failed, run_pure]
  rfl

theorem commit_of_torn (attempted : Attempted handle pending) (append : (nextOutcome store.plan.appends).1 ≠ .succeed) :
    commit device handle store =
      (handle.retreat handle.staged.changes.length (refusal "append")
          ((store.append pending.blocks).2.truncate handle.image.size).1,
        ((store.append pending.blocks).2.truncate handle.image.size).2) := by
  rw [commit_eq_of_attempted attempted, appendCheckpoint_of_torn append]

theorem commit_of_cut (attempted : Attempted handle pending) (append : (nextOutcome store.plan.appends).1 ≠ .succeed)
    (truncate : (nextOutcome store.plan.truncates).1 = .succeed) :
    (commit device handle store).1.handle = handle ∧
      (commit device handle store).2.plan =
        { store.plan with
          appends := (nextOutcome store.plan.appends).2
          truncates := (nextOutcome store.plan.truncates).2 } := by
  have cut : ((store.append pending.blocks).2.truncate handle.image.size).1 = .ok () := answer_ok_iff.mpr ⟨truncate, rfl⟩
  rw [commit_of_torn attempted append, cut]
  exact ⟨rfl, rfl⟩

/-! ### Advancing -/

theorem image_advance (handle : Handle) (pending : PendingCheckpoint) :
    (handle.advance pending).handle.image = handle.image ++ Image.ofBytes pending.bytes := by
  unfold advance
  dsimp only
  split <;> rfl

theorem sound_advance (sound : handle.Sound) (pending : PendingCheckpoint) :
    (handle.advance pending).handle.Sound := by
  unfold advance
  dsimp only
  split
  · exact sound
  · exact Sound.of_staged_empty rfl

theorem attempted_spec (attempted : Attempted handle pending) :
    handle.staged.changes.length < PendingCheckpoint.countLimit ∧ (∀ change ∈ handle.staged.changes, change.Fits) ∧
      pending = handle.laidOut handle.staged.changes := PendingCheckpoint.build_ok_iff.mp attempted.built

/-- A commit that appends advances the handle past its staged changes. -/
theorem advance_of_attempted (grounded : handle.Grounded)
    (attempted : Attempted handle pending) (addressable : (handle.advance pending).handle.image.size < 256 ^ 8) :
    (handle.advance pending).handle = handle.advanced handle.staged.changes ∧
      (handle.advance pending).result = .ok (handle.advance pending).handle.image.size ∧
      (handle.advanced handle.staged.changes).Grounded := by
  obtain ⟨count, fit, rfl⟩ := attempted_spec attempted
  rw [image_advance] at addressable
  replace addressable : (handle.advanced handle.staged.changes).image.size < 256 ^ 8 := addressable
  obtain ⟨events, advanced⟩ := advance_laidOut grounded count fit addressable
  rw [advanced]
  refine ⟨rfl, ?_, grounded_advanced grounded count fit addressable⟩
  rw [grounded.size_advanced]

/-! ### One staged value -/

section Single

variable {key value : Bytes} {change : Change}

theorem attempted_of_change (writable : handle.access = .write) (healthy : handle.poisoned = false)
    (changes : handle.staged.changes = [change]) (fits : change.Fits) :
    Attempted handle (handle.laidOut handle.staged.changes) := by
  refine ⟨writable, healthy, ?_, PendingCheckpoint.build_ok_iff.mpr ⟨?_, ?_, rfl⟩⟩
  · rw [changes]
    exact nofun
  · rw [changes]
    show 1 < PendingCheckpoint.countLimit
    decide
  · rw [changes]
    intro other mem
    rw [List.mem_singleton.mp mem]
    exact fits

theorem attempted_single (writable : handle.access = .write) (healthy : handle.poisoned = false)
    (staged : handle.staged = KeyMap.empty.insert key (.value value)) (fits : Change.Fits ⟨key, some value⟩) :
    Attempted handle (handle.laidOut handle.staged.changes) :=
  attempted_of_change writable healthy (by rw [staged, Staging.changes_single]) fits

theorem checkpointSize_single :
    (handle.laidOut [⟨key, some value⟩]).trailer.checkpointSize
      = roundUp (handle.image.size + (17 + key.length + value.length) + 40) handle.pageSize := by
  simp [laidOut, PendingCheckpoint.laidOut, PendingCheckpoint.trailerFor, Change.encodedLength, Change.overhead,
    Change.valueBytes, Trailer.size]

theorem size_advance_single (grounded : handle.Grounded) (staged : handle.staged = KeyMap.empty.insert key (.value value)) :
    (handle.advance (handle.laidOut handle.staged.changes)).handle.image.size
      = roundUp (handle.image.size + (17 + key.length + value.length) + 40) handle.pageSize := by
  have changes : handle.staged.changes = [⟨key, some value⟩] := by rw [staged, Staging.changes_single]
  rw [image_advance, changes, ← checkpointSize_single]
  exact grounded.size_advanced _

end Single
end Handle
end CheckpointStore
