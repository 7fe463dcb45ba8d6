import CheckpointStore.Proofs.Sessions

/-!
# Opening again

However a session went, opening the bytes of its store anew finds the current checkpoint, the
history and the index that its handle holds. The tail is clean once a checkpoint was appended, and
until then it is as the handle found it.
-/

namespace CheckpointStore
namespace Session

open Handle MemoryStore

/-- What a successful opening starts, whatever calls to the store are planned to fail. -/
inductive Opened : Session → Prop where
  | intro {store : MemoryStore} {mode : OpenMode} {settings : Settings} {handle : Handle}
      (opened : (load device mode settings store).1.result = .ok handle) :
      Opened ⟨handle, (load device mode settings store).2⟩

variable {start session after : Session} {answer : Answer}

theorem Opened.valid (opened : Opened start) : start.Valid := by
  obtain ⟨opened⟩ := opened
  obtain ⟨stored, grounded, again⟩ := of_load opened
  exact ⟨grounded, Sound.of_staged_empty (congrArg Handle.staged again), fun _ => stored⟩

/-- A session that an opening and a run of operations lead to. -/
def Reached (session : Session) : Prop := ∃ start operations, Opened start ∧ session = start.run operations

theorem Reached.valid (reached : session.Reached) (addressable : session.handle.image.size < 256 ^ 8) : session.Valid := by
  obtain ⟨start, operations, opened, rfl⟩ := reached
  exact opened.valid.run operations addressable

def create (settings : Settings) (plan : Plan) : Session :=
  ⟨new settings, (load device .createAndWrite settings { plan }).2⟩

theorem opened_create {settings : Settings} {plan : Plan} (valid : settings.validate = .ok ())
    (read : (nextOutcome plan.reads).1 = .succeed) (append : (nextOutcome plan.appends).1 = .succeed)
    (sync : (nextOutcome plan.syncs).1 = .succeed) : Opened (create settings plan) :=
  .intro (load_new plan valid read append sync).1

theorem plan_create {settings : Settings} {plan : Plan} (valid : settings.validate = .ok ())
    (read : (nextOutcome plan.reads).1 = .succeed) (append : (nextOutcome plan.appends).1 = .succeed)
    (sync : (nextOutcome plan.syncs).1 = .succeed) :
    (create settings plan).store.plan =
      { plan with
        reads := (nextOutcome plan.reads).2
        appends := (nextOutcome plan.appends).2
        syncs := (nextOutcome plan.syncs).2 } := (load_new plan valid read append sync).2

section Created

variable {settings : Settings} {key value : Bytes}

theorem reached_create (valid : settings.validate = .ok ()) (operations : List Operation) :
    ((create settings {}).run operations).Reached := ⟨_, operations, opened_create valid rfl rfl rfl, rfl⟩

theorem run_put (settings : Settings) (key value : Bytes) :
    ((create settings {}).run [.put key value .upsert]).handle
      = (new settings).restaged (KeyMap.empty.insert key (.value value)) := by
  rw [run, create, step_put rfl, run]
  rfl

theorem run_put_commit_faultless (valid : settings.validate = .ok ()) (fits : Change.Fits ⟨key, some value⟩)
    (room : roundUp (settings.pageSize + (17 + key.length + value.length) + 40) settings.pageSize < 256 ^ 8) :
    ∃ store : MemoryStore, store.Faultless ∧
      (create settings {}).run [.put key value .upsert, .commit] = ⟨(new settings).advanced [⟨key, some value⟩], store⟩ := by
  have faultless : (create settings {}).store.Faultless := plan_create valid rfl rfl rfl
  generalize held : (new settings).restaged (KeyMap.empty.insert key (.value value)) = handle
  have staged : handle.staged = KeyMap.empty.insert key (.value value) := held ▸ rfl
  have grounded : handle.Grounded := held ▸ (grounded_new valid).of_same rfl rfl rfl rfl rfl
  have attempted := attempted_single (held ▸ rfl) (held ▸ rfl) staged fits
  have size := size_advance_single grounded staged
  have image : handle.image.size = settings.pageSize := by
    rw [← held]
    exact size_newImage settings
  have page : handle.pageSize = settings.pageSize := held ▸ rfl
  rw [image, page] at size
  obtain ⟨appended, -, later⟩ := commit_of_attempted attempted faultless
  obtain ⟨same, -, -⟩ := advance_of_attempted grounded attempted (size ▸ room)
  have first : ((create settings {}).step (.put key value .upsert)).2 = ⟨handle, (create settings {}).store⟩ := by
    rw [← held]
    exact step_put rfl _ _ _
  refine ⟨_, later, ?_⟩
  rw [run, first, run, run, step_commit, appended, same, staged, Staging.changes_single, ← held]
  rfl

theorem run_put_commit (valid : settings.validate = .ok ()) (fits : Change.Fits ⟨key, some value⟩)
    (room : roundUp (settings.pageSize + (17 + key.length + value.length) + 40) settings.pageSize < 256 ^ 8) :
    ((create settings {}).run [.put key value .upsert, .commit]).handle
      = (new settings).advanced [⟨key, some value⟩] := by
  obtain ⟨store, -, ran⟩ := run_put_commit_faultless valid fits room
  rw [ran]

theorem run_put_commit_put (valid : settings.validate = .ok ()) (fits : Change.Fits ⟨key, some value⟩)
    (room : roundUp (settings.pageSize + (17 + key.length + value.length) + 40) settings.pageSize < 256 ^ 8)
    (nextKey nextValue : Bytes) :
    ((create settings {}).run [.put key value .upsert, .commit, .put nextKey nextValue .upsert]).handle
      = ((new settings).advanced [⟨key, some value⟩]).restaged (KeyMap.empty.insert nextKey (.value nextValue)) := by
  have before := run_put_commit valid fits room
  rw [show [Operation.put key value .upsert, .commit, .put nextKey nextValue .upsert]
    = [.put key value .upsert, .commit] ++ [.put nextKey nextValue .upsert] from rfl, run_append]
  generalize (create settings {}).run [.put key value .upsert, .commit] = session at *
  obtain ⟨handle, store⟩ := session
  replace before : handle = (new settings).advanced [⟨key, some value⟩] := before
  rw [run, step_put (before ▸ rfl), run, before]
  rfl

theorem size_advanced_new (valid : settings.validate = .ok ()) (key value : Bytes) :
    ((new settings).advanced [⟨key, some value⟩]).image.size
        = roundUp (settings.pageSize + (17 + key.length + value.length) + 40) settings.pageSize ∧
      ((new settings).advanced [⟨key, some value⟩]).checkpoint
        = roundUp (settings.pageSize + (17 + key.length + value.length) + 40) settings.pageSize := by
  have size := (grounded_new valid).size_advanced [⟨key, some value⟩]
  have image : (new settings).image.size = settings.pageSize := size_newImage settings
  have checkpoint : ((new settings).advanced [⟨key, some value⟩]).checkpoint
      = ((new settings).laidOut [⟨key, some value⟩]).trailer.checkpointSize := rfl
  rw [checkpoint, size, checkpointSize_single, image]
  exact ⟨rfl, rfl⟩

theorem committed?_advanced_new (valid : settings.validate = .ok ()) (fits : Change.Fits ⟨key, some value⟩)
    (room : roundUp (settings.pageSize + (17 + key.length + value.length) + 40) settings.pageSize < 256 ^ 8) (other : Bytes) :
    ((new settings).advanced [⟨key, some value⟩]).committed? other = if other = key then some value else none := by
  have size := (size_advanced_new valid key value).1
  split
  · rename_i same
    rw [same]
    refine (grounded_new valid).committed?_advanced_of_mem ?_ ?_ (size ▸ room) ?_ (List.mem_singleton.mpr rfl)
    · show 1 < PendingCheckpoint.countLimit
      decide
    · intro change mem
      rw [List.mem_singleton.mp mem]
      exact fits
    · exact List.pairwise_singleton _ _
  · rename_i different
    refine (grounded_new valid).committed?_advanced_of_absent fun bytes mem => different ?_
    exact congrArg Change.key (List.mem_singleton.mp mem)

/-- A database with pages of 512 bytes in which one short document was committed. -/
theorem one_committed (fits : Change.Fits ⟨key, some value⟩)
    (room : roundUp (512 + (17 + key.length + value.length) + 40) 512 = 1024) :
    ∃ handle store, (create { pageSize := 512 } {}).run [.put key value .upsert, .commit] = ⟨handle, store⟩ ∧
      store.Faultless ∧ handle.Grounded ∧ handle.access = .write ∧ handle.poisoned = false ∧
      handle.staged = KeyMap.empty ∧ handle.image.size = 1024 ∧ handle.checkpoint = 1024 ∧ handle.pageSize = 512 ∧
      ∀ other, handle.committed? other = if other = key then some value else none := by
  have valid : Settings.validate { pageSize := 512 } = .ok () := rfl
  have below : roundUp (512 + (17 + key.length + value.length) + 40) 512 < 256 ^ 8 := by omega
  obtain ⟨store, faultless, ran⟩ := run_put_commit_faultless valid fits below
  obtain ⟨size, checkpoint⟩ := size_advanced_new valid key value
  refine ⟨_, store, ran, faultless, ?_, rfl, rfl, rfl, size.trans room, checkpoint.trans room, rfl,
    committed?_advanced_new valid fits below⟩
  have reached := reached_create valid [.put key value .upsert, .commit]
  rw [ran] at reached
  exact (reached.valid (lt_of_eq_of_lt size below)).grounded

end Created

def tail (session : Session) : Recovery := Recovery.past session.handle.image.size session.handle.validEnd

theorem Opened.recovery (opened : Opened start) : start.handle.recovery = start.tail := by
  obtain ⟨opened⟩ := opened
  exact congrArg Handle.recovery (of_load opened).2.2

theorem recovery_of_moved (moved : Moved session answer after) : after.handle.recovery = session.handle.recovery := by
  cases moved with
  | restaged staged sound old => rfl
  | committed outcome =>
    cases outcome with
    | appended attempted image =>
      unfold advance
      dsimp only
      split <;> rfl
    | _ => rfl

theorem recovery_run (sound : session.handle.Sound) (operations : List Operation) :
    (session.run operations).handle.recovery = session.handle.recovery := by
  induction operations generalizing session with
  | nil => rfl
  | cons operation rest ih =>
    have moved := step_moved sound operation
    exact (ih (sound_of_moved sound moved)).trans (recovery_of_moved moved)

/-- A commit that appends is answered with a new identifier: its checkpoint ends past the image. -/
theorem isNew_of_attempted {handle : Handle} {pending : PendingCheckpoint} (grounded : handle.Grounded)
    (attempted : Attempted handle pending) (addressable : (handle.advance pending).handle.image.size < 256 ^ 8) :
    (Answer.ofCommit (handle.advance pending).result).isNew handle.checkpoint = true := by
  obtain ⟨same, answered, -⟩ := advance_of_attempted grounded attempted addressable
  have size := grounded.size_advanced handle.staged.changes
  have below := grounded.checkpoint_le
  have room := grounded.room_laidOut handle.staged.changes
  rw [answered, same]
  simp only [Answer.ofCommit, Answer.isNew, bne_iff_ne]
  omega

/-- The tail is clean behind an appended checkpoint, and no other step changes it. -/
theorem tail_of_moved (grounded : session.handle.Grounded) (moved : Moved session answer after)
    (addressable : after.handle.image.size < 256 ^ 8) :
    after.tail = if answer.isNew session.handle.checkpoint = true then .clean else session.tail := by
  cases moved with
  | restaged staged sound old =>
    rw [old]
    rfl
  | committed outcome =>
    cases outcome with
    | refused events cause => rfl
    | skipped events writable healthy nothing =>
      have old : (Answer.ofCommit (.ok session.handle.checkpoint)).isNew session.handle.checkpoint = false := by
        simp [Answer.ofCommit, Answer.isNew]
      rw [old]
      rfl
    | cut events attempted split image => rfl
    | stuck events attempted split image => rfl
    | @appended pending _ attempted image =>
      obtain ⟨same, -, -⟩ := advance_of_attempted grounded attempted addressable
      have size := grounded.size_advanced session.handle.staged.changes
      rw [isNew_of_attempted grounded attempted addressable, if_pos rfl]
      unfold tail
      dsimp only
      rw [same]
      exact if_pos size.symm

theorem tail_run (valid : session.Valid) (operations : List Operation)
    (addressable : (session.run operations).handle.image.size < 256 ^ 8) :
    (session.run operations).tail = if session.appendsIn operations = true then .clean else session.tail := by
  induction operations generalizing session with
  | nil => rfl
  | cons operation rest ih =>
    have moved := step_moved valid.sound operation
    have later := size_mono (image_run (sound_of_moved valid.sound moved) rest)
    have between := Nat.lt_of_le_of_lt later addressable
    have first := tail_of_moved valid.grounded moved between
    have rest := ih (valid.of_moved moved between) addressable
    rw [run, rest, first, appendsIn, appends]
    cases (session.step operation).1.isNew session.handle.checkpoint <;> simp

/-- Unless it is poisoned, a handle agrees with every new opening of its store. -/
theorem reopening_agrees (opened : Opened start) (operations : List Operation)
    (healthy : (start.run operations).handle.poisoned = false)
    (addressable : (start.run operations).handle.image.size < 256 ^ 8) :
    (start.run operations).store.image = (start.run operations).handle.image ∧
      (∀ earlier later, operations = earlier ++ later →
        (start.run earlier).handle.image.bytes <+: (start.run operations).handle.image.bytes) ∧
      Opens (start.run operations).store.image fun fresh _ =>
        fresh.current = (start.run operations).handle.current ∧
          fresh.history = (start.run operations).handle.history ∧
          fresh.index = (start.run operations).handle.index ∧
          fresh.recovery =
            if start.appendsIn operations = true then .clean else (start.run operations).handle.recovery := by
  have valid := opened.valid.run operations addressable
  have stored := valid.stored healthy
  refine ⟨stored, ?_, ?_⟩
  · rintro earlier later rfl
    rw [run_append]
    exact image_run (sound_run opened.valid.sound earlier) later
  · rw [stored]
    refine opens_of_grounded valid.grounded fun mode settings location after same faultless => ⟨rfl, rfl, rfl, ?_⟩
    have found := tail_run opened.valid operations addressable
    rw [recovery_run opened.valid.sound, opened.recovery, ← found]
    rfl

/-- A commit that stops after three bytes, and the same commit again: the file opens clean, with
one checkpoint. -/
theorem reopening_agrees_after_torn_append :
    Opens ((create { pageSize := 512 } { appends := [.succeed, .short 3] }).run
      [.put [0x61] [0x31] .upsert, .commit, .commit]).store.image fun fresh _ =>
        fresh.history = [1024] ∧ fresh.recovery = .clean := by
  have valid : Settings.validate { pageSize := 512 } = .ok () := rfl
  generalize created : create { pageSize := 512 } { appends := [.succeed, .short 3] } = start
  have opened : Opened start := created ▸ opened_create valid rfl rfl rfl
  have plan : start.store.plan = { appends := [.short 3] } := created ▸ plan_create valid rfl rfl rfl
  have fresh : start.handle = new { pageSize := 512 } := created ▸ rfl
  have writable : start.handle.access = .write := congrArg Handle.access fresh
  have empty : start.handle.staged = KeyMap.empty := congrArg Handle.staged fresh
  generalize held : start.handle.restaged (start.handle.staged.insert [0x61] (.value [0x31])) = handle
  have staged : handle.staged = KeyMap.empty.insert [0x61] (.value [0x31]) := by
    rw [← held, empty]
    rfl
  have grounded : handle.Grounded := held ▸ opened.valid.grounded.of_same rfl rfl rfl rfl rfl
  have attempted : Attempted handle (handle.laidOut handle.staged.changes) :=
    attempted_single (held ▸ writable) (by rw [← held, fresh]; rfl) staged (by decide)
  have torn : (nextOutcome start.store.plan.appends).1 ≠ .succeed := by
    rw [plan]
    exact nofun
  have undone : (nextOutcome start.store.plan.truncates).1 = .succeed := by
    rw [plan]
    rfl
  obtain ⟨cut, replanned⟩ := commit_of_cut attempted torn undone
  have faultless : (commit device handle start.store).2.Faultless := by
    rw [Faultless, replanned, plan]
    rfl
  obtain ⟨appended, -⟩ := commit_of_attempted attempted faultless
  have reached : (start.run [.put [0x61] [0x31] .upsert, .commit, .commit]).handle
      = (handle.advance (handle.laidOut handle.staged.changes)).handle := by
    have first : (start.step (.put [0x61] [0x31] .upsert)).2 = ⟨handle, start.store⟩ := by
      rw [← held]
      exact step_put writable start.store _ _
    have second : ((⟨handle, start.store⟩ : Session).step .commit).2
        = ⟨handle, (commit device handle start.store).2⟩ := by rw [step_commit, cut]
    rw [run, first, run, second, run_commit, appended]
  have size : (handle.advance (handle.laidOut handle.staged.changes)).handle.image.size = 1024 := by
    have before : handle.image.size = 512 := by
      rw [← held, fresh]
      exact size_newImage _
    have page : handle.pageSize = 512 := by
      rw [← held, fresh]
      rfl
    rw [size_advance_single grounded staged, before, page]
    decide
  have addressable : (handle.advance (handle.laidOut handle.staged.changes)).handle.image.size < 256 ^ 8 := by
    rw [size]
    omega
  obtain ⟨same, -, -⟩ := advance_of_attempted grounded attempted addressable
  have healthy : (start.run [.put [0x61] [0x31] .upsert, .commit, .commit]).handle.poisoned = false := by
    rw [reached, same]
    exact attempted.healthy
  obtain ⟨-, -, agrees⟩ := reopening_agrees opened _ healthy (reached ▸ addressable)
  intro mode settings accepted
  obtain ⟨found, loaded, -, history, -, recovery⟩ := agrees mode settings accepted
  refine ⟨found, loaded, ?_, ?_⟩
  · rw [history, reached, same]
    rw [same, grounded.size_advanced] at size
    show (handle.checkpoints ++ [_]).reverse = [1024]
    rw [size, ← held, fresh]
    rfl
  · rw [recovery, recovery_run opened.valid.sound, fresh]
    exact ite_self _

end Session
end CheckpointStore
