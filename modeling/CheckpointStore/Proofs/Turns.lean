import CheckpointStore.Proofs.Reopenings

/-!
# Dropping a handle and opening again

A store is used by one handle at a time, which may be dropped and the store opened anew in any
mode. Whatever becomes of the calls to the store, its first bytes are the image of the handle, and
no byte of an image is ever lost.
-/

namespace CheckpointStore

/-- What is done with a store next. -/
inductive Turn where
  | operate (operation : Operation)
  /-- The handle is dropped and the store opened again; where that fails the handle is kept -/
  | reopen (mode : OpenMode) (settings : Settings)

namespace Session

open Handle MemoryStore

def turn (session : Session) : Turn → Session
  | .operate operation => (session.step operation).2
  | .reopen mode settings =>
    let loaded := load device mode settings session.store
    match loaded.1.result with
    | .error _ => { session with store := loaded.2 }
    | .ok handle => ⟨handle, loaded.2⟩

def turns (session : Session) : List Turn → Session
  | [] => session
  | turn :: rest => turns (session.turn turn) rest

/-- Whether a checkpoint is appended in one of the turns. -/
def appendsDuring (session : Session) : List Turn → Bool
  | [] => false
  | turn :: rest =>
    (match turn with
      | .operate operation => session.appends operation
      | .reopen .. => false) || appendsDuring (session.turn turn) rest

/-- No commit of the turns leaves the handle poisoned: none fails to cut off what it has appended. -/
def Unpoisoned (session : Session) (turns : List Turn) : Prop :=
  ∀ count, (session.turns (turns.take count)).handle.poisoned = false

variable {session after : Session} {answer : Answer}

theorem turns_append (session : Session) (first later : List Turn) :
    session.turns (first ++ later) = (session.turns first).turns later := by
  induction first generalizing session with
  | nil => rfl
  | cons turn rest ih => exact ih _

theorem turns_operate (session : Session) (operations : List Operation) :
    session.turns (operations.map .operate) = session.run operations := by
  induction operations generalizing session with
  | nil => rfl
  | cons operation rest ih => exact ih _

theorem Unpoisoned.here {turns : List Turn} (healthy : session.Unpoisoned turns) : session.handle.poisoned = false :=
  healthy 0

theorem Unpoisoned.later {turn : Turn} {rest : List Turn} (healthy : session.Unpoisoned (turn :: rest)) :
    (session.turn turn).Unpoisoned rest := fun count => healthy (count + 1)

theorem Unpoisoned.append {first later : List Turn} (healthy : session.Unpoisoned (first ++ later)) :
    session.Unpoisoned first ∧ (session.turns first).Unpoisoned later := by
  induction first generalizing session with
  | nil =>
    refine ⟨fun count => ?_, healthy⟩
    rw [List.take_nil]
    exact healthy.here
  | cons turn rest ih =>
    obtain ⟨before, behind⟩ := ih healthy.later
    refine ⟨fun count => ?_, behind⟩
    cases count with
    | zero => exact healthy.here
    | succ count => exact before count

theorem Unpoisoned.last {turns : List Turn} (healthy : session.Unpoisoned turns) :
    (session.turns turns).handle.poisoned = false := by
  have whole := healthy turns.length
  rwa [List.take_length] at whole

/-! ### What a turn does -/

/-- Everything that opening the store again can do to a session. -/
inductive Reopened (session : Session) : Session → Prop where
  | refused {store : MemoryStore} (image : store.image = session.store.image) : Reopened session ⟨session.handle, store⟩
  | opened {after : Session} (opened : Opened after) (image : after.handle.image = session.store.image) :
      Reopened session after

/-- Everything a turn can do to a session. -/
inductive Turned (session : Session) : Session → Prop where
  | moved {answer : Answer} {after : Session} (moved : Moved session answer after) : Turned session after
  | reopened {after : Session} (reopened : Reopened session after) : Turned session after

/-- The store begins with the handle's image, and ends with it unless the handle is poisoned. -/
structure Backed (session : Session) : Prop where
  sound : session.handle.Sound
  filled : 0 < session.handle.image.size
  backed : session.handle.image.bytes <+: session.store.image.bytes
  stored : session.handle.poisoned = false → session.store.image = session.handle.image

theorem reopened (backed : session.Backed) (mode : OpenMode) (settings : Settings) :
    Reopened session (session.turn (.reopen mode settings)) := by
  have image := image_load session.store mode settings
    (Nat.lt_of_lt_of_le backed.filled (size_mono backed.backed))
  unfold Session.turn
  cases opened : (load device mode settings session.store).1.result with
  | error error =>
    simp only [opened]
    exact .refused image
  | ok handle =>
    simp only [opened]
    exact .opened (.intro opened) ((of_load opened).1.symm.trans image)

theorem turned (backed : session.Backed) (turn : Turn) : Turned session (session.turn turn) := by
  cases turn with
  | operate operation => exact .moved (step_moved backed.sound operation)
  | reopen mode settings => exact .reopened (reopened backed mode settings)

/-! ### What turns keep -/

theorem Opened.backed (opened : Opened session) : session.Backed := by
  obtain ⟨grounded, sound, stored⟩ := opened.valid
  have bounds := grounded.pageSize_bounds
  refine ⟨sound, by omega, ?_, stored⟩
  obtain ⟨opened⟩ := opened
  rw [(of_load opened).1]

theorem Backed.of_moved (backed : session.Backed) (moved : Moved session answer after) : after.Backed := by
  obtain ⟨sound, filled, backed, stored⟩ := backed
  have grown := size_mono (image_of_moved moved)
  refine ⟨sound_of_moved sound moved, by omega, ?_, ?_⟩
  · cases moved with
    | restaged staged sound old => exact backed
    | committed outcome =>
      cases outcome with
      | refused events cause => exact backed
      | skipped events writable healthy nothing => exact backed
      | appended attempted image =>
        dsimp only
        rw [image, image_advance, stored attempted.healthy]
      | cut events attempted split image =>
        dsimp only
        rw [image, Image.bytes_take, Image.bytes_append, stored attempted.healthy, ← Image.length_bytes, List.take_left]
      | stuck events attempted split image =>
        dsimp only
        rw [image, Image.bytes_append]
        exact backed.trans (List.prefix_append _ _)
  · cases moved with
    | restaged staged sound old => exact stored
    | committed outcome =>
      cases outcome with
      | refused events cause => exact stored
      | skipped events writable healthy nothing => exact stored
      | appended attempted image =>
        intro healthy
        dsimp only
        rw [image, image_advance, stored attempted.healthy]
      | cut events attempted split image =>
        intro healthy
        refine Image.ext ?_
        dsimp only
        rw [image, Image.bytes_take, Image.bytes_append, stored attempted.healthy, ← Image.length_bytes, List.take_left]
      | stuck events attempted split image => exact nofun

theorem Backed.of_turned (backed : session.Backed) (turned : Turned session after) : after.Backed := by
  cases turned with
  | moved moved => exact backed.of_moved moved
  | reopened reopened =>
    cases reopened with
    | refused image =>
      obtain ⟨sound, filled, begun, stored⟩ := backed
      exact ⟨sound, filled, image ▸ begun, fun healthy => image.trans (stored healthy)⟩
    | opened opened image => exact opened.backed

theorem Backed.turns (backed : session.Backed) (turns : List Turn) : (session.turns turns).Backed := by
  induction turns generalizing session with
  | nil => exact backed
  | cons turn rest ih => exact ih (backed.of_turned (turned backed turn))

theorem Reached.backed (reached : session.Reached) : session.Backed := by
  obtain ⟨start, operations, opened, rfl⟩ := reached
  have backed := opened.backed
  clear opened
  induction operations generalizing start with
  | nil => exact backed
  | cons operation rest ih => exact ih _ (backed.of_moved (step_moved backed.sound operation))

theorem image_of_turned (backed : session.Backed) (turned : Turned session after) :
    session.handle.image.bytes <+: after.handle.image.bytes := by
  cases turned with
  | moved moved => exact image_of_moved moved
  | reopened reopened =>
    cases reopened with
    | refused image => exact List.prefix_rfl
    | opened opened image => exact image ▸ backed.backed

theorem image_turns (backed : session.Backed) (turns : List Turn) :
    session.handle.image.bytes <+: (session.turns turns).handle.image.bytes := by
  induction turns generalizing session with
  | nil => exact List.prefix_rfl
  | cons turn rest ih =>
    have next := turned backed turn
    exact (image_of_turned backed next).trans (ih (backed.of_turned next))

theorem Valid.of_turned (valid : session.Valid) (turned : Turned session after)
    (addressable : after.handle.image.size < 256 ^ 8) : after.Valid := by
  cases turned with
  | moved moved => exact valid.of_moved moved addressable
  | reopened reopened =>
    cases reopened with
    | refused image => exact ⟨valid.grounded, valid.sound, fun healthy => image.trans (valid.stored healthy)⟩
    | opened opened image => exact opened.valid

theorem Valid.turns (valid : session.Valid) (backed : session.Backed) (turns : List Turn)
    (addressable : (session.turns turns).handle.image.size < 256 ^ 8) : (session.turns turns).Valid := by
  induction turns generalizing session with
  | nil => exact valid
  | cons turn rest ih =>
    have next := turned backed turn
    have later := size_mono (image_turns (backed.of_turned next) rest)
    exact ih (valid.of_turned next (Nat.lt_of_le_of_lt later addressable)) (backed.of_turned next) addressable

/-- Unless the handle is poisoned, opening again gives what it has committed. -/
theorem Valid.of_reopened (valid : session.Valid) (healthy : session.handle.poisoned = false)
    (reopened : Reopened session after) :
    after.handle.image = session.handle.image ∧ after.handle.header = session.handle.header ∧
      after.handle.checkpoints = session.handle.checkpoints := by
  cases reopened with
  | refused image => exact ⟨rfl, rfl, rfl⟩
  | opened opened image =>
    have same := image.trans (valid.stored healthy)
    obtain ⟨header, -, checkpoints, -⟩ := valid.grounded.unique opened.valid.grounded same
    exact ⟨same, header, checkpoints⟩

/-! ### Plans without a failing cut -/

/-- Whatever else fails, no call to cut the store is going to. -/
def Cuts (store : MemoryStore) : Prop := ∀ outcome ∈ store.plan.truncates, outcome = .succeed

theorem cuts_truncate {store : MemoryStore} (cuts : Cuts store) (size : Nat) :
    (store.truncate size).1 = .ok () ∧ Cuts (store.truncate size).2 := by
  unfold Cuts at cuts
  cases planned : store.plan.truncates with
  | nil =>
    have outcome : nextOutcome store.plan.truncates = (.succeed, []) := by
      rw [planned]
      rfl
    unfold Cuts MemoryStore.truncate
    rw [outcome]
    exact ⟨rfl, nofun⟩
  | cons first rest =>
    rw [planned] at cuts
    have outcome : nextOutcome store.plan.truncates = (.succeed, rest) := by
      rw [planned, cuts first List.mem_cons_self]
      rfl
    unfold Cuts MemoryStore.truncate
    rw [outcome]
    exact ⟨rfl, fun other mem => cuts other (List.mem_cons_of_mem _ mem)⟩

theorem cuts_commit {handle : Handle} {store : MemoryStore} (healthy : handle.poisoned = false) (cuts : Cuts store) :
    (commit device handle store).1.handle.poisoned = false ∧ Cuts (commit device handle store).2 := by
  have attempt {pending : PendingCheckpoint} (attempted : Attempted handle pending) :
      (commit device handle store).1.handle.poisoned = false ∧ Cuts (commit device handle store).2 := by
    have kept : Cuts (appendCheckpoint device handle.settings.syncOnCommit pending store).2 := by
      rw [Cuts, truncates_appendCheckpoint]
      exact cuts
    obtain ⟨cut, after⟩ := cuts_truncate kept handle.image.size
    rw [commit_eq_of_attempted attempted]
    cases (appendCheckpoint device handle.settings.syncOnCommit pending store).1 with
    | ok done =>
      refine ⟨?_, kept⟩
      show (handle.advance pending).handle.poisoned = false
      unfold advance
      dsimp only
      split <;> exact healthy
    | error error =>
      dsimp only
      rw [cut]
      exact ⟨healthy, after⟩
  have outcome := commit_outcome handle store
  generalize commit device handle store = committed at outcome attempt
  obtain ⟨committed, after⟩ := committed
  cases outcome with
  | refused events cause => exact ⟨healthy, cuts⟩
  | skipped events writable healthy nothing => exact ⟨healthy, cuts⟩
  | appended attempted image => exact attempt attempted
  | cut events attempted split image => exact attempt attempted
  | stuck events attempted split image => exact attempt attempted

theorem cuts_readImage {store : MemoryStore} (cuts : Cuts store) (mode : OpenMode) (settings : Settings) :
    Cuts (readImage device mode settings store).2 := by
  unfold readImage
  simp only [run_bind]
  cases (device.readAll store).1 with
  | error error => exact cuts
  | ok image =>
    dsimp only
    split
    · simp only [run_bind]
      cases (device.append (newImage settings).bytes (device.readAll store).2).1 with
      | error error => exact cuts
      | ok done =>
        simp only [run_bind]
        cases (device.sync (device.append (newImage settings).bytes (device.readAll store).2).2).1 with
        | error error => exact cuts
        | ok done => exact cuts
    · exact cuts

theorem cuts_load {store : MemoryStore} (cuts : Cuts store) (mode : OpenMode) (settings : Settings) :
    Cuts (load device mode settings store).2 := by
  have read := cuts_readImage cuts mode settings
  unfold load
  cases settings.validate with
  | error error => exact cuts
  | ok done =>
    simp only [run_bind]
    cases (readImage device mode settings store).1 with
    | error error => exact read
    | ok image =>
      dsimp only
      cases ofImage image mode settings device.location with
      | error error => exact read
      | ok pair => exact read

theorem cuts_turn (turn : Turn) (sound : session.handle.Sound) (healthy : session.handle.poisoned = false)
    (cuts : Cuts session.store) :
    (session.turn turn).handle.Sound ∧ (session.turn turn).handle.poisoned = false ∧ Cuts (session.turn turn).store := by
  cases turn with
  | operate operation =>
    refine ⟨sound_of_moved sound (step_moved sound operation), ?_⟩
    cases plain : operation.isCommit with
    | false =>
      obtain ⟨staged, stepped, -⟩ := step_restaged sound plain
      rw [Session.turn, stepped]
      exact ⟨healthy, cuts⟩
    | true =>
      cases operation with
      | commit => exact cuts_commit healthy cuts
      | _ => contradiction
  | reopen mode settings =>
    have kept := cuts_load cuts mode settings
    unfold Session.turn
    cases opened : (load device mode settings session.store).1.result with
    | error error =>
      simp only [opened]
      exact ⟨sound, healthy, kept⟩
    | ok handle =>
      simp only [opened]
      have again := (of_load opened).2.2
      exact ⟨Sound.of_staged_empty (congrArg Handle.staged again), congrArg Handle.poisoned again, kept⟩

/-- Where no cut is going to fail no handle is ever poisoned. -/
theorem unpoisoned_of_cuts (turns : List Turn) (sound : session.handle.Sound) (healthy : session.handle.poisoned = false)
    (cuts : Cuts session.store) : session.Unpoisoned turns := by
  induction turns generalizing session with
  | nil =>
    intro count
    rw [List.take_nil]
    exact healthy
  | cons turn rest ih =>
    obtain ⟨kept, still, later⟩ := cuts_turn turn sound healthy cuts
    intro count
    cases count with
    | zero => exact healthy
    | succ count => exact ih kept still later count

end Session
end CheckpointStore
