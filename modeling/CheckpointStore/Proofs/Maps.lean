import CheckpointStore.Proofs.Reopenings
import CheckpointStore.Proofs.Views

/-!
# A pair of maps

A database that one session uses without faults behaves as two maps: one that commits replace, and
one that puts and removals change and every reading shows. A commit that is refused as too large
leaves both as they were.
-/

namespace CheckpointStore

/-- Settings and a writable mode with which a database can be opened. -/
structure Writing where
  mode : OpenMode
  settings : Settings
  writable : Handle.accessOf mode = .write
  valid : settings.validate = .ok ()

inductive Action where
  | put (key value : Bytes) (mode : PutMode)
  | putDocument (key : Bytes) (document : Value) (mode : PutMode)
  | remove (key : Bytes)
  | revert
  | commit
  /-- The handle is dropped and the database opened again -/
  | reopen (writing : Writing)

/-- The committed documents, and those with the changes since. -/
structure Maps where
  base : KeyMap Bytes
  live : KeyMap Bytes

namespace Maps

def put (maps : Maps) (key value : Bytes) (mode : PutMode) : Maps :=
  if mode.allows (maps.live.contains key) then { maps with live := maps.live.insert key value } else maps

/-- What an action answers and makes of the maps, where a commit has so many changes to write. -/
inductive Step (changes : Nat) (maps : Maps) : Action → Answer → Maps → Prop where
  | put (key value : Bytes) (mode : PutMode) :
      Step changes maps (.put key value mode) (.applied (mode.allows (maps.live.contains key))) (maps.put key value mode)
  | putDocument (key : Bytes) (document : Value) (mode : PutMode) :
      Step changes maps (.putDocument key document mode) (.applied (mode.allows (maps.live.contains key)))
        (maps.put key document.encode mode)
  | remove (key : Bytes) :
      Step changes maps (.remove key) (.applied (maps.live.contains key)) { maps with live := maps.live.erase key }
  | revert : Step changes maps .revert .done { maps with live := maps.base }
  | commit (checkpoint : Nat) (few : changes < PendingCheckpoint.countLimit)
      (fit : ∀ key value, maps.live.get? key = some value → Change.Fits ⟨key, some value⟩) :
      Step changes maps .commit (.committed checkpoint) { maps with base := maps.live }
  | refuse (fault : SizeFault)
      (large : PendingCheckpoint.countLimit ≤ changes ∨
        ∃ key value, maps.live.get? key = some value ∧ ¬ Change.Fits ⟨key, some value⟩) :
      Step changes maps .commit (.failed (.storage (.tooLarge fault))) maps
  | reopen (writing : Writing) : Step changes maps (.reopen writing) .done { maps with live := maps.base }

end Maps

namespace Handle

/-- Every reading of the handle is that of the map. -/
structure ReadsAs (handle : Handle) (map : KeyMap Bytes) : Prop where
  get : ∀ key, handle.get? key = map.get? key
  contains : ∀ key, handle.contains key = map.contains key
  size : handle.size = map.size
  isEmpty : handle.isEmpty = (map.size == 0)
  documents : handle.documents = map.entries
  documentsFrom : ∀ start, handle.documentsFrom start = map.startingAt start

variable {handle : Handle}

theorem ReadsAs.of_get? {map : KeyMap Bytes} (sound : handle.Sound) (same : ∀ key, handle.get? key = map.get? key) :
    handle.ReadsAs map := by
  have documents : handle.documents = map.entries := by
    apply ascending_documents.eq_of_mem_iff map.ascending_entries
    intro key value
    rw [mem_documents_iff sound, same, KeyMap.mem_entries_iff]
  have size : handle.size = map.size := by rw [size_eq_length_documents sound, documents, KeyMap.length_entries]
  refine ⟨same, ?_, size, ?_, documents, ?_⟩
  · intro key
    rw [contains_eq sound, same, KeyMap.contains_eq]
  · rw [Handle.isEmpty, size]
  · intro start
    apply (ascending_documentsFrom start).eq_of_mem_iff (map.ascending_startingAt start)
    intro key value
    rw [mem_documentsFrom_iff sound, same, KeyMap.startingAt, List.mem_filter, KeyMap.mem_entries_iff, and_comm]
    simp

end Handle

namespace Session

open Handle MemoryStore

def act (session : Session) : Action → Answer × Session
  | .put key value mode => session.step (.put key value mode)
  | .putDocument key document mode => session.step (.putDocument key document mode)
  | .remove key => session.step (.remove key)
  | .revert => session.step .revert
  | .commit => session.step .commit
  | .reopen writing =>
    let loaded := load device writing.mode writing.settings session.store
    match loaded.1.result with
    | .error error => (.failed error, { session with store := loaded.2 })
    | .ok handle => (.done, ⟨handle, loaded.2⟩)

def acts (session : Session) : List Action → Session
  | [] => session
  | action :: rest => acts (session.act action).2 rest

/-- The handle reads as the changed map, and a view of its checkpoint as the committed one. -/
structure Reads (session : Session) (maps : Maps) : Prop where
  live : session.handle.ReadsAs maps.live
  base : ∃ view, (session.handle.viewAt session.handle.checkpoint).result = .ok view ∧ view.ReadsAs maps.base

/-- A run that goes as the maps do: at every state the readings are theirs, and every answer. -/
inductive Refines : Session → Maps → List Action → Prop where
  | done {session : Session} {maps : Maps} (reads : session.Reads maps) : Refines session maps []
  | step {session : Session} {maps after : Maps} {action : Action} {rest : List Action} (reads : session.Reads maps)
      (moved : Maps.Step session.handle.staged.changes.length maps action (session.act action).1 after)
      (later : Refines (session.act action).2 after rest) : Refines session maps (action :: rest)

/-! ### One step -/

/-- A session without faults that holds what the maps do. -/
structure Mirrors (session : Session) (maps : Maps) : Prop where
  valid : session.Valid
  writable : session.handle.access = .write
  healthy : session.handle.poisoned = false
  faultless : session.store.Faultless
  live : ∀ key, session.handle.get? key = maps.live.get? key
  base : ∀ key, session.handle.committed? key = maps.base.get? key
  fit : ∀ key value, maps.base.get? key = some value → Change.Fits ⟨key, some value⟩

/-- An action that goes as on the maps, and leaves a session that holds what they do. -/
def Follows (session : Session) (maps : Maps) (action : Action) : Prop :=
  ∃ after, Maps.Step session.handle.staged.changes.length maps action (session.act action).1 after ∧
    (session.act action).2.Mirrors after

variable {session : Session} {maps : Maps}

theorem Mirrors.reads (mirrors : session.Mirrors maps) : session.Reads maps := by
  refine ⟨.of_get? mirrors.valid.sound mirrors.live, ?_⟩
  refine ⟨session.handle.viewed, mirrors.valid.grounded.viewAt_checkpoint, .of_get? (Sound.of_staged_empty rfl) ?_⟩
  intro key
  rw [get?_of_staged_empty rfl]
  exact mirrors.base key

theorem mirrors_create {settings : Settings} (valid : settings.validate = .ok ()) :
    (create settings {}).Mirrors ⟨.empty, .empty⟩ := by
  refine ⟨(opened_create valid rfl rfl rfl).valid, rfl, rfl, plan_create valid rfl rfl rfl, ?_, ?_, ?_⟩
  · intro key
    rw [get?_of_staged_empty rfl]
    rfl
  · exact fun key => rfl
  · intro key value found
    simp at found

theorem Mirrors.restaged (mirrors : session.Mirrors maps) {handle : Handle} {live : KeyMap Bytes}
    (restaged : ∃ staged, handle = session.handle.restaged staged) (sound : handle.Sound)
    (found : ∀ key, handle.get? key = live.get? key) : Mirrors ⟨handle, session.store⟩ { maps with live } := by
  obtain ⟨staged, rfl⟩ := restaged
  obtain ⟨⟨grounded, -, stored⟩, writable, healthy, faultless, -, base, fit⟩ := mirrors
  exact ⟨⟨grounded.of_same rfl rfl rfl rfl rfl, sound, stored⟩, writable, healthy, faultless, found, base, fit⟩

theorem mirrors_put (mirrors : session.Mirrors maps) (key value : Bytes) (mode : PutMode) :
    (session.step (.put key value mode)).1 = .applied (mode.allows (maps.live.contains key)) ∧
      (session.step (.put key value mode)).2.Mirrors (maps.put key value mode) := by
  have contains := mirrors.reads.live.contains key
  cases put : session.handle.put key value mode with
  | error error =>
    unfold Handle.put at put
    rw [ensureWritable_ok_iff.mpr mirrors.writable] at put
    dsimp only at put
    split at put <;> contradiction
  | ok pair =>
    obtain ⟨applied, handle⟩ := pair
    obtain ⟨restaged, sound, rfl, found⟩ := put_spec mirrors.valid.sound put
    have stepped : session.step (.put key value mode)
        = (.applied (mode.allows (session.handle.contains key)), ⟨handle, session.store⟩) := by
      unfold step
      dsimp only
      rw [put]
    rw [contains] at stepped found
    rw [stepped]
    refine ⟨rfl, ?_⟩
    unfold Maps.put
    split
    · rename_i allowed
      apply mirrors.restaged restaged sound
      intro other
      rw [found, KeyMap.get?_insert, mirrors.live, allowed]
      simp
    · rename_i refused
      apply mirrors.restaged restaged sound
      intro other
      rw [found, if_neg fun both => refused both.1, mirrors.live]

theorem mirrors_remove (mirrors : session.Mirrors maps) (key : Bytes) :
    (session.step (.remove key)).1 = .applied (maps.live.contains key) ∧
      (session.step (.remove key)).2.Mirrors { maps with live := maps.live.erase key } := by
  have contains := mirrors.reads.live.contains key
  cases removed : session.handle.remove key with
  | error error =>
    unfold Handle.remove at removed
    rw [ensureWritable_ok_iff.mpr mirrors.writable] at removed
    dsimp only at removed
    split at removed
    · contradiction
    · split at removed <;> contradiction
  | ok pair =>
    obtain ⟨present, handle⟩ := pair
    obtain ⟨restaged, sound, rfl, found⟩ := remove_spec mirrors.valid.sound removed
    have stepped : session.step (.remove key)
        = (.applied (session.handle.contains key), ⟨handle, session.store⟩) := by
      unfold step
      dsimp only
      rw [removed]
    rw [stepped, contains]
    refine ⟨rfl, mirrors.restaged restaged sound ?_⟩
    intro other
    rw [found, KeyMap.get?_erase, mirrors.live]

theorem mirrors_revert (mirrors : session.Mirrors maps) :
    (session.step .revert).2.Mirrors { maps with live := maps.base } := by
  refine mirrors.restaged ⟨KeyMap.empty, rfl⟩ (Sound.of_staged_empty rfl) ?_
  intro key
  rw [get?_of_staged_empty rfl]
  exact mirrors.base key

theorem mirrors_reopen (mirrors : session.Mirrors maps) (writing : Writing) :
    (session.act (.reopen writing)).1 = .done ∧
      (session.act (.reopen writing)).2.Mirrors { maps with live := maps.base } := by
  have stored := mirrors.valid.stored mirrors.healthy
  obtain ⟨opened, image, faultless⟩ :=
    load_of_grounded writing.mode mirrors.valid.grounded mirrors.faultless stored writing.valid
  have acted : session.act (.reopen writing)
      = (.done, ⟨session.handle.reopened writing.mode writing.settings device.location,
          (load device writing.mode writing.settings session.store).2⟩) := by
    unfold act
    dsimp only
    rw [opened]
  rw [acted]
  refine ⟨rfl, ⟨?_, Sound.of_staged_empty rfl, fun _ => image.trans stored⟩, writing.writable, rfl, faultless, ?_,
    mirrors.base, mirrors.fit⟩
  · exact mirrors.valid.grounded.of_same rfl rfl rfl rfl rfl
  · intro key
    rw [get?_of_staged_empty rfl]
    exact mirrors.base key

/-! ### Commits -/

/-- What a commit writes fits its blocks when every document does: a removal is no longer than the
document that it removes. -/
theorem Mirrors.changes_fit_iff (mirrors : session.Mirrors maps) :
    (∀ change ∈ session.handle.staged.changes, change.Fits) ↔
      ∀ key value, maps.live.get? key = some value → Change.Fits ⟨key, some value⟩ := by
  constructor
  · intro fit key value found
    rw [← mirrors.live] at found
    rcases session.handle.get?_cases key with ⟨change, mem, same⟩ | ⟨-, same⟩
    · rw [found] at same
      exact fit _ (same ▸ mem)
    · rw [found, mirrors.base] at same
      exact mirrors.fit key value same.symm
  · rintro fit ⟨key, value⟩ mem
    obtain ⟨pending, staged, written⟩ := Staging.mem_changes_iff.mp mem
    have found := get?_of_written staged written
    cases value with
    | some value =>
      rw [mirrors.live] at found
      exact fit key value found
    | none =>
      obtain ⟨value, committed⟩ :=
        index_contains_iff.mp (mirrors.valid.sound key pending staged (by rw [written]; rfl))
      rw [mirrors.base] at committed
      have longer := mirrors.fit key value committed
      simp only [Change.Fits, Change.encodedLength, Change.valueBytes] at longer ⊢
      simp only [Option.getD_some, Option.getD_none, List.length_nil] at longer ⊢
      omega

theorem act_commit_eq {result : Except DatabaseError Nat} {handle : Handle} {store : MemoryStore}
    (answered : (commit device session.handle session.store).1.result = result)
    (left : (commit device session.handle session.store).1.handle = handle)
    (stored : (commit device session.handle session.store).2 = store) :
    session.act .commit = (.ofCommit result, ⟨handle, store⟩) := by
  subst answered left stored
  rfl

theorem follows_commit_of_unchanged (mirrors : session.Mirrors maps) (nothing : session.handle.staged.changes = []) :
    session.Follows maps .commit := by
  have all := mirrors.changes_fit_iff.mp (by simp [nothing])
  obtain ⟨⟨grounded, -, stored⟩, writable, healthy, faultless, live, -, -⟩ := mirrors
  obtain ⟨answered, left, store⟩ := commit_of_unchanged writable healthy nothing session.store
  have kept : ∀ key, session.handle.committed? key = maps.live.get? key := by
    intro key
    rw [← live, ← get?_of_changes_eq_nil nothing, get?_of_staged_empty rfl]
    rfl
  unfold Follows
  rw [act_commit_eq answered left store]
  refine ⟨_, .commit _ (by rw [nothing]; decide) all, ⟨?_, Sound.of_staged_empty rfl, stored⟩, writable, healthy,
    faultless, ?_, kept, all⟩
  · exact grounded.of_same rfl rfl rfl rfl rfl
  · intro key
    rw [get?_of_staged_empty rfl]
    exact kept key

theorem follows_commit_of_refused (mirrors : session.Mirrors maps) (large : session.handle.Oversized) {fault : SizeFault}
    (refused : Refused session.handle (.storage (.tooLarge fault))) : session.Follows maps .commit := by
  obtain ⟨answered, left, store⟩ := commit_of_refused refused session.store
  unfold Follows
  rw [act_commit_eq answered left store]
  refine ⟨maps, .refuse fault ?_, mirrors⟩
  -- were the changes few and each document small enough, the checkpoint would have been built
  by_contra small
  obtain ⟨few, fit⟩ := not_or.mp small
  refine not_oversized_iff.mpr ⟨Nat.not_le.mp few, mirrors.changes_fit_iff.mpr fun key value found => ?_⟩ large
  by_contra large
  exact fit ⟨key, value, found, large⟩

theorem follows_commit_of_attempted (mirrors : session.Mirrors maps) {pending : PendingCheckpoint}
    (attempted : Attempted session.handle pending) (addressable : (session.act .commit).2.handle.image.size < 256 ^ 8) :
    session.Follows maps .commit := by
  have all := mirrors.changes_fit_iff
  obtain ⟨⟨grounded, -, stored⟩, writable, healthy, faultless, live, -, -⟩ := mirrors
  obtain ⟨few, fit, rfl⟩ := attempted_spec attempted
  obtain ⟨committed, image, later⟩ := commit_of_attempted attempted faultless
  have left := congrArg Committed.handle committed
  rw [act_commit_eq rfl left rfl] at addressable
  obtain ⟨same, answered, advanced⟩ := advance_of_attempted grounded attempted addressable
  rw [same] at addressable
  have kept : ∀ key, (session.handle.advanced session.handle.staged.changes).get? key = maps.live.get? key := by
    intro key
    rw [grounded.get?_advanced few fit addressable]
    exact live key
  unfold Follows
  rw [act_commit_eq ((congrArg Committed.result committed).trans answered) (left.trans same) rfl]
  refine ⟨_, .commit _ few (all.mp fit), ⟨advanced, Sound.of_staged_empty rfl, ?_⟩, writable, healthy, later, kept, ?_,
    all.mp fit⟩
  · intro healthy
    rw [image, stored healthy]
    rfl
  · intro key
    rw [← kept, get?_of_staged_empty rfl]

/-- A commit makes the live map the committed one, or is refused as too large. -/
theorem follows_commit (mirrors : session.Mirrors maps) (addressable : (session.act .commit).2.handle.image.size < 256 ^ 8) :
    session.Follows maps .commit := by
  obtain ⟨nothing, -⟩ | ⟨large, fault, refused⟩ | ⟨-, pending, attempted⟩ := commit_cases mirrors.writable mirrors.healthy
  · exact follows_commit_of_unchanged mirrors nothing
  · exact follows_commit_of_refused mirrors large refused
  · exact follows_commit_of_attempted mirrors attempted addressable

/-! ### Runs -/

theorem follows (mirrors : session.Mirrors maps) (action : Action)
    (addressable : (session.act action).2.handle.image.size < 256 ^ 8) : session.Follows maps action := by
  cases action with
  | put key value mode =>
    obtain ⟨answered, after⟩ := mirrors_put mirrors key value mode
    exact ⟨_, answered ▸ .put key value mode, after⟩
  | putDocument key document mode =>
    obtain ⟨answered, after⟩ := mirrors_put mirrors key document.encode mode
    exact ⟨_, answered ▸ .putDocument key document mode, after⟩
  | remove key =>
    obtain ⟨answered, after⟩ := mirrors_remove mirrors key
    exact ⟨_, answered ▸ .remove key, after⟩
  | revert => exact ⟨_, .revert, mirrors_revert mirrors⟩
  | commit => exact follows_commit mirrors addressable
  | reopen writing =>
    obtain ⟨answered, after⟩ := mirrors_reopen mirrors writing
    exact ⟨_, answered ▸ .reopen writing, after⟩

theorem Mirrors.refines (mirrors : session.Mirrors maps) (actions : List Action)
    (addressable : ∀ count, (session.acts (actions.take count)).handle.image.size < 256 ^ 8) :
    session.Refines maps actions := by
  induction actions generalizing session maps with
  | nil => exact .done mirrors.reads
  | cons action rest ih =>
    obtain ⟨after, moved, kept⟩ := follows mirrors action (addressable 1)
    exact .step mirrors.reads moved (ih kept fun count => addressable (count + 1))

/-- Without faults a new database goes as two empty maps do, whatever is done with it. -/
theorem refines_maps {settings : Settings} (valid : settings.validate = .ok ()) (actions : List Action)
    (addressable : ∀ count, ((create settings {}).acts (actions.take count)).handle.image.size < 256 ^ 8) :
    (load device .createAndWrite settings {}).1.result = .ok (create settings {}).handle ∧
      (create settings {}).Refines ⟨.empty, .empty⟩ actions :=
  ⟨(load_new {} valid rfl rfl rfl).1, (mirrors_create valid).refines actions addressable⟩

theorem refines_maps_put_commit_revert :
    (create { pageSize := 512 } {}).Refines ⟨.empty, .empty⟩ [.put [0x61] [0x31] .upsert, .commit, .revert] := by
  have valid : Settings.validate { pageSize := 512 } = .ok () := rfl
  have fits : Change.Fits ⟨[0x61], some [0x31]⟩ := by decide
  have room : roundUp (512 + (17 + [(0x61 : UInt8)].length + [(0x31 : UInt8)].length) + 40) 512 = 1024 := by decide
  have put := congrArg (fun handle => handle.image.size) (run_put { pageSize := 512 } [0x61] [0x31])
  have commit := congrArg (fun handle => handle.image.size)
    (run_put_commit valid fits (Nat.lt_of_le_of_lt (Nat.le_of_eq room) (by omega)))
  replace put := put.trans (size_newImage _)
  replace commit := commit.trans ((size_advanced_new valid _ _).1.trans room)
  have fresh : (create { pageSize := 512 } {}).handle.image.size = 512 := size_newImage _
  simp only [run] at put commit
  refine (refines_maps valid _ ?_).2
  intro count
  generalize create { pageSize := 512 } {} = start at *
  have reverted (session : Session) : (session.step .revert).2.handle.image = session.handle.image := rfl
  rcases count with _ | _ | _ | more
  · rw [List.take_zero, acts, fresh]
    omega
  · rw [List.take_succ_cons, List.take_zero, acts, acts, act, put]
    omega
  · rw [List.take_succ_cons, List.take_succ_cons, List.take_zero, acts, acts, acts, act, act, commit]
    omega
  · rw [List.take_of_length_le (Nat.le_add_left 3 more), acts, acts, acts, acts, act, act, act, reverted, commit]
    omega

end Session
end CheckpointStore
