import CheckpointStore.Proofs.Crashes

/-!
# Failed commits

A commit that fails behind its append leaves all that the handle holds as it was. Where the append
was cut off again, the next commit goes as a first attempt would have. Where the cut failed too,
no later commit calls the store, and the handle reads as if no commit had been tried.
-/

namespace CheckpointStore

namespace Handle

open MemoryStore

variable {store : MemoryStore} {handle : Handle} {pending : PendingCheckpoint}

/-! ### The cut -/

/-- The handle that takes no more commits. -/
def poison (handle : Handle) : Handle := { handle with poisoned := true }

/-- What a commit leaves that comes to its append and fails: the cut alone decides. -/
theorem commit_of_failed (grounded : handle.Grounded) (attempted : Attempted handle pending)
    (addressable : (handle.advance pending).handle.image.size < 256 ^ 8) {error : DatabaseError}
    (failed : (commit device handle store).1.result = .error error) :
    ∃ part rest, pending.bytes = part ++ rest ∧
      ((nextOutcome store.plan.truncates).1 = .succeed →
        (commit device handle store).1.handle = handle ∧
          (commit device handle store).2.image = (store.image ++ Image.ofBytes part).take handle.image.size) ∧
      ((nextOutcome store.plan.truncates).1 ≠ .succeed →
        (commit device handle store).1.handle = handle.poison ∧
          (commit device handle store).2.image = store.image ++ Image.ofBytes part) := by
  obtain ⟨part, rest, split, image, -⟩ := appendCheckpoint_run store handle.settings.syncOnCommit pending
  have plan := truncates_appendCheckpoint store handle.settings.syncOnCommit pending
  rw [commit_eq_of_attempted attempted] at failed ⊢
  dsimp only at failed ⊢
  generalize appendCheckpoint device handle.settings.syncOnCommit pending store = appended at failed image plan ⊢
  obtain ⟨result, after⟩ := appended
  cases result with
  | ok done =>
    obtain ⟨-, answered, -⟩ := advance_of_attempted grounded attempted addressable
    exact nomatch answered.symm.trans failed
  | error failure =>
    have cut := truncate_run after handle.image.size
    have answered : (after.truncate handle.image.size).1 = .ok () ↔ (nextOutcome store.plan.truncates).1 = .succeed := by
      rw [← plan]
      exact answer_ok_iff.trans (and_iff_left rfl)
    refine ⟨part, rest, split, fun succeeds => ?_, fun fails => ?_⟩
    · have done := answered.mpr succeeds
      rw [if_pos done, image] at cut
      refine ⟨?_, cut⟩
      dsimp only
      rw [done]
      rfl
    · have refused := mt answered.mp fails
      rw [if_neg refused, image] at cut
      refine ⟨?_, cut⟩
      dsimp only
      cases result : (after.truncate handle.image.size).1 with
      | ok done => exact absurd result refused
      | error cause => rfl

/-! ### Poisoned handles -/

theorem put_poison (handle : Handle) (key value : Bytes) (mode : PutMode) :
    handle.poison.put key value mode = (handle.put key value mode).map (Prod.map id poison) := by
  unfold put
  rw [show handle.poison.ensureWritable = handle.ensureWritable from rfl]
  split
  · rfl
  · rw [show handle.poison.contains key = handle.contains key from rfl]
    split <;> rfl

theorem remove_poison (handle : Handle) (key : Bytes) :
    handle.poison.remove key = (handle.remove key).map (Prod.map id poison) := by
  unfold remove
  rw [show handle.poison.ensureWritable = handle.ensureWritable from rfl]
  split
  · rfl
  · rw [show handle.poison.contains key = handle.contains key from rfl,
      show handle.poison.index = handle.index from rfl]
    split
    · rfl
    · split <;> rfl

theorem edit?_poison (handle : Handle) (key : Bytes) :
    handle.poison.edit? key = (handle.edit? key).map (Prod.map id poison) := by
  unfold edit?
  rw [show handle.poison.ensureWritable = handle.ensureWritable from rfl,
    show handle.poison.staged = handle.staged from rfl,
    show handle.poison.committed? key = handle.committed? key from rfl]
  split
  · rfl
  · dsimp only
    split
    · rfl
    · rfl
    · split <;> rfl
    · split
      · rfl
      · split <;> rfl

theorem sameReadings_poison (handle : Handle) : handle.poison.SameReadings handle where
  get _ := rfl
  document _ := rfl
  contains _ := rfl
  size := rfl
  isEmpty := rfl
  documents := rfl
  documentsFrom _ := rfl
  checkpoint := rfl
  previousCheckpoint := rfl
  history := rfl

end Handle

namespace Session

open Handle MemoryStore

variable {session after : Session} {answer : Answer} {pending : PendingCheckpoint}

theorem access_of_moved (moved : Moved session answer after) : after.handle.access = session.handle.access := by
  cases moved with
  | restaged staged sound old => rfl
  | committed outcome =>
    cases outcome with
    | appended attempted image =>
      unfold advance
      dsimp only
      split <;> rfl
    | _ => rfl

theorem access_run (sound : session.handle.Sound) (operations : List Operation) :
    (session.run operations).handle.access = session.handle.access := by
  induction operations generalizing session with
  | nil => rfl
  | cons operation rest ih =>
    have moved := step_moved sound operation
    exact (ih (sound_of_moved sound moved)).trans (access_of_moved moved)

theorem step_poison (handle : Handle) (store other : MemoryStore) {operation : Operation}
    (plain : operation.isCommit = false) :
    (⟨handle.poison, store⟩ : Session).step operation =
      (((⟨handle, other⟩ : Session).step operation).1,
        ⟨((⟨handle, other⟩ : Session).step operation).2.handle.poison, store⟩) := by
  cases operation with
  | put key value mode =>
    unfold step
    dsimp only
    rw [put_poison]
    cases handle.put key value mode <;> rfl
  | putDocument key document mode =>
    unfold step putDocument
    dsimp only
    rw [put_poison]
    cases handle.put key document.encode mode <;> rfl
  | remove key =>
    unfold step
    dsimp only
    rw [remove_poison]
    cases handle.remove key <;> rfl
  | edit key edits =>
    unfold step
    dsimp only
    rw [edit?_poison]
    cases handle.edit? key with
    | error error => rfl
    | ok taken =>
      obtain ⟨document, after⟩ := taken
      cases document <;> rfl
  | revert => rfl
  | commit => contradiction

theorem step_commit_eq_failed_iff {error : DatabaseError} {left : Session} :
    session.step .commit = (.failed error, left) ↔
      (commit device session.handle session.store).1.result = .error error ∧
        left = ⟨(commit device session.handle session.store).1.handle, (commit device session.handle session.store).2⟩ := by
  unfold step
  dsimp only
  rw [Prod.mk.injEq, @eq_comm _ left]
  refine and_congr_left fun _ => ?_
  cases (commit device session.handle session.store).1.result with
  | error cause => simp [Answer.ofCommit]
  | ok checkpoint => simp [Answer.ofCommit]

/-- A poisoned handle goes through a run as one that skips the commits, and leaves the store alone. -/
theorem run_poison {handle : Handle} (sound : handle.Sound) (writable : handle.access = .write)
    (store other : MemoryStore) (operations : List Operation) :
    (⟨handle.poison, store⟩ : Session).run operations =
      ⟨((⟨handle, other⟩ : Session).run (operations.filter fun operation => !operation.isCommit)).handle.poison, store⟩ := by
  induction operations generalizing handle other with
  | nil => rfl
  | cons operation rest ih =>
    cases plain : operation.isCommit with
    | true =>
      cases operation with
      | commit =>
        have refused : Refused handle.poison (.poisoned handle.location handle.checkpoint) := .poisoned writable rfl
        rw [run, step_commit_of_refused refused, List.filter_cons_of_neg (by simp [plain])]
        exact ih sound writable other
      | _ => contradiction
    | false =>
      have moved := @step_moved ⟨handle, other⟩ sound operation
      rw [run, step_poison handle store other plain, List.filter_cons_of_pos (by simp [plain])]
      exact ih (sound_of_moved sound moved) ((access_of_moved moved).trans writable) _

/-- A commit that fails behind its append leaves the handle's image, index, current checkpoint,
history and staged changes. Where the cut succeeds the store has its bytes back, and the next
commit goes as a first attempt would have; where it fails every later commit is refused without a
call, and all is read as if no commit had been tried. -/
theorem failed_commit_is_atomic (reached : session.Reached) (attempted : Attempted session.handle pending)
    (addressable : session.handle.image.size + pending.bytes.length < 256 ^ 8) {error : DatabaseError} {left : Session}
    (failed : session.step .commit = (.failed error, left)) :
    (left.handle.image = session.handle.image ∧ left.handle.index = session.handle.index ∧
        left.handle.current = session.handle.current ∧ left.handle.checkpoints = session.handle.checkpoints ∧
        left.handle.staged = session.handle.staged) ∧
      ((nextOutcome session.store.plan.truncates).1 = .succeed →
        left.store.image = session.store.image ∧ left.handle.poisoned = false ∧
          ∀ first again : MemoryStore, first.Faultless → first.image = session.store.image →
            again.Faultless → again.image = left.store.image →
            ∃ checkpoint, (step ⟨session.handle, first⟩ .commit).1 = .committed checkpoint ∧
              (step ⟨left.handle, again⟩ .commit).1 = .committed checkpoint ∧
              (step ⟨left.handle, again⟩ .commit).2.store.image = (step ⟨session.handle, first⟩ .commit).2.store.image) ∧
      ((nextOutcome session.store.plan.truncates).1 ≠ .succeed → ∀ operations,
        let later := left.run operations
        let untried := (session.run (operations.filter fun operation => !operation.isCommit)).handle
        (∃ refusal, later.step .commit = (.failed refusal, later) ∧ refusal.code = "KEEL_COMMIT_POISONED") ∧
          later.handle.SameReadings untried ∧
          ∀ checkpoint, (later.handle.viewAt checkpoint).result = (untried.viewAt checkpoint).result) := by
  have valid := reached.valid (by omega)
  have room : (session.handle.advance pending).handle.image.size < 256 ^ 8 := by
    rw [image_advance, Image.size_append, Image.size_ofBytes]
    exact addressable
  obtain ⟨result, rfl⟩ := step_commit_eq_failed_iff.mp failed
  obtain ⟨part, rest, split, cut, stuck⟩ := commit_of_failed valid.grounded attempted room result
  generalize (commit device session.handle session.store).1.handle = handle at cut stuck
  generalize (commit device session.handle session.store).2 = after at cut stuck
  refine ⟨?_, fun succeeds => ?_, fun fails operations => ?_⟩
  · by_cases succeeds : (nextOutcome session.store.plan.truncates).1 = .succeed
    · rw [(cut succeeds).1]
      exact ⟨rfl, rfl, rfl, rfl, rfl⟩
    · rw [(stuck succeeds).1]
      exact ⟨rfl, rfl, rfl, rfl, rfl⟩
  · obtain ⟨rfl, image⟩ := cut succeeds
    have back : after.image = session.store.image := by
      rw [image, valid.stored attempted.healthy]
      refine Image.ext ?_
      rw [Image.bytes_take, Image.bytes_append, ← Image.length_bytes, List.take_left]
    refine ⟨back, attempted.healthy, ?_⟩
    intro first again faultless begun healed resumed
    have tried := @step_commit_of_attempted ⟨session.handle, first⟩ _ valid.grounded attempted faultless addressable
    have retried := @step_commit_of_attempted ⟨session.handle, again⟩ _ valid.grounded attempted healed addressable
    obtain ⟨-, wrote, -⟩ := commit_of_attempted attempted faultless
    obtain ⟨-, rewrote, -⟩ := commit_of_attempted attempted healed
    refine ⟨_, congrArg Prod.fst tried, congrArg Prod.fst retried, ?_⟩
    rw [step_commit, step_commit, wrote, rewrote, begun, resumed, back]
  · obtain ⟨rfl, -⟩ := stuck fails
    have ran := run_poison valid.sound attempted.writable after session.store operations
    have writable := (access_run valid.sound (operations.filter fun operation => !operation.isCommit)).trans
      attempted.writable
    dsimp only
    rw [ran]
    generalize session.run (operations.filter fun operation => !operation.isCommit) = untried at writable
    obtain ⟨untried, other⟩ := untried
    have refused : Refused untried.poison (.poisoned untried.location untried.checkpoint) := .poisoned writable rfl
    obtain ⟨answered, kept, untouched⟩ := commit_of_refused refused after
    refine ⟨⟨_, step_commit_eq_failed_iff.mpr ⟨answered, ?_⟩, rfl⟩, sameReadings_poison untried, fun checkpoint => rfl⟩
    rw [kept, untouched]

/-- A first commit whose blocks stop after three bytes, with any plan for the cut. -/
theorem torn_first_commit (truncates : List Outcome) :
    ∃ session pending left,
      session = (create { pageSize := 512 } { appends := [.succeed, .short 3], truncates }).run
        [.put [0x61] [0x31] .upsert] ∧
      session.Reached ∧ Attempted session.handle pending ∧ session.handle.image.size = 512 ∧
      session.handle.pageSize = 512 ∧ 512 + pending.bytes.length = 1024 ∧ session.store.plan.truncates = truncates ∧
      session.step .commit = (.failed (.storage (refusal "append")), left) ∧ left.store.image.size ≤ 515 := by
  have fits : Change.Fits ⟨[0x61], some [0x31]⟩ := by decide
  obtain ⟨session, pending, named, reached, attempted, image, -, page, -, total, left⟩ :=
    first_value_planned { appends := [.succeed, .short 3], truncates } rfl rfl rfl fits
  have room : roundUp (512 + (17 + [(0x61 : UInt8)].length + [(0x31 : UInt8)].length) + 40) 512 = 1024 := by decide
  rw [room] at total
  have outcome : (nextOutcome session.store.plan.appends).1 = .short 3 := by
    rw [left]
    rfl
  have stopped : (nextOutcome session.store.plan.appends).1 ≠ .succeed := by
    rw [outcome]
    exact nofun
  have torn := commit_of_torn attempted stopped
  have failed : (commit device session.handle session.store).1.result = .error (.storage (refusal "append")) := by
    rw [torn]
    cases ((session.store.append pending.blocks).2.truncate session.handle.image.size).1 <;> rfl
  refine ⟨session, pending, _, named, reached, attempted, image, page, total, by rw [left],
    step_commit_eq_failed_iff.mpr ⟨failed, rfl⟩, ?_⟩
  have stored := (reached.valid (by omega)).stored attempted.healthy
  have written : (session.store.append pending.blocks).2.image.size ≤ 515 := by
    show (session.store.image
      ++ Image.ofBytes (pending.blocks.take (written _ (nextOutcome session.store.plan.appends).1))).size ≤ 515
    rw [Image.size_append, Image.size_ofBytes, List.length_take, outcome, stored, image]
    show 512 + min (min 3 _) _ ≤ 515
    omega
  rw [torn]
  show ((session.store.append pending.blocks).2.truncate session.handle.image.size).2.image.size ≤ 515
  rw [truncate_run]
  split
  · rw [← Image.length_bytes, Image.bytes_take, List.length_take, image]
    omega
  · exact written

/-- After a torn append the staged change is kept: a cut gives the store its bytes back, and
without one the next commit is refused. -/
theorem failed_commit_keeps_staged_change :
    (∃ session left error,
      session = (create { pageSize := 512 } { appends := [.succeed, .short 3] }).run [.put [0x61] [0x31] .upsert] ∧
      session.step .commit = (.failed error, left) ∧ left.handle.staged = session.handle.staged ∧
      left.store.image = session.store.image) ∧
    ∃ session left error,
      session = (create { pageSize := 512 } { appends := [.succeed, .short 3], truncates := [.fail] }).run
        [.put [0x61] [0x31] .upsert] ∧
      session.step .commit = (.failed error, left) ∧ left.handle.staged = session.handle.staged ∧
      ∃ refusal, left.step .commit = (.failed refusal, left) ∧ refusal.code = "KEEL_COMMIT_POISONED" := by
  constructor
  · obtain ⟨session, pending, left, named, reached, attempted, image, -, total, plan, failed, -⟩ := torn_first_commit []
    obtain ⟨kept, cut, -⟩ := failed_commit_is_atomic reached attempted (by omega) failed
    exact ⟨session, left, _, named, failed, kept.2.2.2.2, (cut (by rw [plan]; rfl)).1⟩
  · obtain ⟨session, pending, left, named, reached, attempted, image, -, total, plan, failed, -⟩ :=
      torn_first_commit [.fail]
    obtain ⟨kept, -, stuck⟩ := failed_commit_is_atomic reached attempted (by omega) failed
    exact ⟨session, left, _, named, failed, kept.2.2.2.2, (stuck (by rw [plan]; exact nofun) []).1⟩

end Session
end CheckpointStore
