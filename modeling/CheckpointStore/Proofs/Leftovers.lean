import CheckpointStore.Proofs.Failures
import CheckpointStore.Proofs.Turns

/-!
# What failed commits leave behind

Bytes that a failed commit left behind an image stay out of sight exactly as long as they close no
valid checkpoint. They close none where what was appended is cut off again; but a checkpoint that
was appended whole, and whose commit failed in its last sync, is found by the next opening.
-/

namespace CheckpointStore
namespace Handle

open MemoryStore

variable {handle : Handle} {rest : Image}

/-- Every opening of the image that succeeds finds what the handle has committed, and no more. -/
def Hides (handle : Handle) (image : Image) : Prop :=
  ∀ mode settings (store : MemoryStore) fresh, store.image = image →
    (load device mode settings store).1.result = .ok fresh →
    fresh.checkpoint = handle.checkpoint ∧ fresh.history = handle.history ∧
      fresh.documents = handle.revert.1.documents ∧ fresh.recovery = Recovery.past image.size handle.validEnd

/-- A checkpoint ends past `size`, and the newest such one has an index. -/
def Overtaken (image : Image) (pageSize size : Nat) : Prop :=
  ∃ trailer index, Newest image pageSize trailer ∧ size < trailer.checkpointSize ∧
    LiveIndex.build image pageSize trailer.checkpointSize = .ok index

theorem grounded_of_newest {image : Image} {header : Header} {trailer : Trailer} {index : LiveIndex}
    (decoded : Header.decode image = .ok header) (newest : Newest image header.pageSize trailer)
    (built : LiveIndex.build image header.pageSize trailer.checkpointSize = .ok index) :
    ∃ fresh : Handle, fresh.Grounded ∧ fresh.image = image ∧ fresh.checkpoint = trailer.checkpointSize := by
  obtain ⟨layout, loaded, rfl, current⟩ := Layout.load_of_newest decoded newest
  have stop : (layout.current.map Trailer.checkpointSize).getD 0 = trailer.checkpointSize := by
    rw [current]
    rfl
  obtain ⟨trailers, walk⟩ := LiveIndex.walk_of_build built
  have walked := chain_ok_iff.mpr walk
  obtain ⟨fresh, events, opened, found⟩ : ∃ fresh events, ofImage image .readOnly {} "" = .ok (fresh, events) ∧
      fresh.current = layout.current := by
    unfold ofImage
    simp only [loaded, stop, walked, built]
    exact ⟨_, _, rfl, rfl⟩
  obtain ⟨grounded, image, -⟩ := grounded_of_ofImage opened
  exact ⟨fresh, grounded, image, checkpoint_of_current (found.trans current)⟩

/-- What is found of an image with bytes behind it, unless those bytes overtake it. -/
theorem grounded_behind_of_found (grounded : handle.Grounded) {fresh : Handle} (found : fresh.Grounded)
    (image : fresh.image = handle.image ++ rest)
    (kept : ¬ Overtaken (handle.image ++ rest) handle.pageSize handle.image.size) : (handle.behind rest).Grounded := by
  have page := pageSize_of_image_append grounded found image
  have bounds := grounded.pageSize_bounds
  have size : (handle.image ++ rest).size = handle.image.size + rest.size := Image.size_append _ _
  have before : ∀ trailer, fresh.current = some trailer → trailer.checkpointSize ≤ handle.image.size := by
    intro trailer current
    by_contra past
    have newest := found.current trailer current
    have index := found.index
    rw [checkpoint_of_current current, image, page] at index
    rw [image, page] at newest
    exact kept ⟨trailer, _, newest, Nat.lt_of_not_le past, index⟩
  by_cases committed : handle.checkpoint = 0
  · refine (grounded_behind_fresh_iff grounded committed).mpr ?_
    cases current : fresh.current with
    | none =>
      have one := found.fresh current
      rw [image, page, size, Nat.div_eq_iff (by omega)] at one
      omega
    | some trailer =>
      -- a fresh image has no second page, where a checkpoint could end
      have one := grounded.fresh (grounded.checkpoint_eq_zero_iff.mp committed)
      have inside := before trailer current
      obtain ⟨index, place, many, -⟩ := page_of_valid (by omega) (found.current trailer current).valid
      rw [page] at place
      rw [Nat.div_eq_iff (by omega)] at one
      have two : 2 * handle.pageSize ≤ index * handle.pageSize := Nat.mul_le_mul_right _ many
      omega
  · refine (grounded_behind_iff grounded committed).mpr ?_
    intro stop trailer past valid
    cases current : fresh.current with
    | none =>
      obtain ⟨index, -, many, inside⟩ := page_of_valid (by omega) valid
      have one := found.fresh current
      rw [image, page] at one
      omega
    | some newest =>
      have newer := (found.current newest current).newest stop trailer (by rw [image, page]; exact valid)
      have inside := before newest current
      omega

/-- Leftover bytes stay out of sight exactly when they do not overtake the image. -/
theorem hides_iff (grounded : handle.Grounded) (rest : Image) :
    handle.Hides (handle.image ++ rest) ↔ ¬ Overtaken (handle.image ++ rest) handle.pageSize handle.image.size := by
  have bounds := grounded.pageSize_bounds
  constructor
  · rintro hides ⟨trailer, index, newest, past, built⟩
    obtain ⟨found, whole, image, checkpoint⟩ := grounded_of_newest (grounded.parts_behind rest).1 newest built
    have faultless : MemoryStore.Faultless { image := handle.image ++ rest } := rfl
    obtain ⟨opened, -, -⟩ := load_of_grounded .readOnly whole faultless image.symm validate_default
    have same := (hides _ _ _ _ rfl opened).1
    replace same : found.checkpoint = handle.checkpoint := same
    have inside := grounded.checkpoint_le
    omega
  · intro kept mode settings store fresh stored opened
    obtain ⟨left, found, again⟩ := of_load opened
    have filled : 0 < store.image.size := by
      rw [stored, Image.size_append]
      omega
    have image : fresh.image = handle.image ++ rest := (left.symm.trans (image_load store mode settings filled)).trans stored
    have whole := grounded_behind_of_found grounded found image kept
    obtain ⟨header, current, checkpoints, index⟩ := whole.unique found image
    have same : fresh = (handle.behind rest).reopened mode settings device.location := by
      have valid : fresh.validEnd = (handle.behind rest).validEnd := by
        rw [validEnd, pageSize, header, current]
        rfl
      rw [again, reopened, valid, image, header, current, checkpoints, index]
      rfl
    rw [same]
    exact ⟨rfl, rfl, documents_reopened_behind grounded rest mode settings device.location, rfl⟩

/-- Behind a checkpoint that is appended whole the last sync fails, and then the cut. -/
theorem commit_of_unsynced {pending : PendingCheckpoint} (attempted : Attempted handle pending)
    (sync : handle.settings.syncOnCommit = true) {store : MemoryStore}
    (planned : store.plan = { syncs := [.succeed, .fail], truncates := [.fail] }) :
    (commit device handle store).1.result = .error (.storage (refusal "sync")) ∧
      (commit device handle store).2.image = store.image ++ Image.ofBytes pending.bytes := by
  obtain ⟨image, plan, calls⟩ := store
  subst planned
  rw [commit_eq_of_attempted attempted, sync]
  refine ⟨rfl, ?_⟩
  show (image ++ Image.ofBytes (pending.blocks.take pending.blocks.length))
    ++ Image.ofBytes (pending.tail.take pending.tail.length) = image ++ Image.ofBytes (pending.blocks ++ pending.tail)
  refine Image.ext ?_
  rw [List.take_length, List.take_length]
  simp

end Handle

namespace Session

open Handle MemoryStore

variable {session left : Session} {pending : PendingCheckpoint}

theorem image_of_moved_old {answer : Answer} {after : Session} (grounded : session.handle.Grounded)
    (moved : Moved session answer after) (old : answer.isNew session.handle.checkpoint = false)
    (addressable : after.handle.image.size < 256 ^ 8) : after.handle.image = session.handle.image := by
  cases moved with
  | restaged staged sound same => rfl
  | committed outcome =>
    cases outcome with
    | appended attempted image =>
      exact absurd (isNew_of_attempted grounded attempted addressable) (Bool.eq_false_iff.mp old)
    | _ => rfl

/-- Where nothing is appended and every cut succeeds the store keeps its bytes. -/
theorem image_turns_of_quiet {turns : List Turn} (valid : session.Valid) (backed : session.Backed)
    (quiet : session.appendsDuring turns = false) (healthy : session.Unpoisoned turns)
    (addressable : (session.turns turns).handle.image.size < 256 ^ 8) :
    (session.turns turns).store.image = session.handle.image := by
  induction turns generalizing session with
  | nil => exact backed.stored healthy.here
  | cons turn rest ih =>
    obtain ⟨still, later⟩ := Bool.or_eq_false_iff.mp quiet
    have next := turned backed turn
    have grown := size_mono (image_turns (backed.of_turned next) rest)
    have between := Nat.lt_of_le_of_lt grown addressable
    refine (ih (valid.of_turned next between) (backed.of_turned next) later healthy.later addressable).trans ?_
    cases turn with
    | operate operation => exact image_of_moved_old valid.grounded (step_moved backed.sound operation) still between
    | reopen mode settings => exact (valid.of_reopened healthy.here (reopened backed mode settings)).1

/-- What the store holds after a failed commit and any turns since shows what was committed before,
and no more, exactly as long as the leftover bytes do not overtake the image. They never do where
every cut succeeds and no later commit does. -/
theorem failed_commit_hidden_iff (reached : session.Reached) {error : DatabaseError}
    (failed : session.step .commit = (.failed error, left)) (turns : List Turn)
    (addressable : (left.turns turns).handle.image.size < 256 ^ 8) :
    (session.handle.Hides (left.turns turns).store.image ↔
      ¬ Overtaken (left.turns turns).store.image session.handle.pageSize session.handle.image.size) ∧
      (left.Unpoisoned turns → left.appendsDuring turns = false →
        session.handle.Hides (left.turns turns).store.image) := by
  have backed := reached.backed
  have moved := step_moved backed.sound .commit
  rw [failed] at moved
  have begun := image_of_moved moved
  have behind := backed.of_moved moved
  have whole := begun.trans (image_turns behind turns)
  have valid := reached.valid (Nat.lt_of_le_of_lt (size_mono whole) addressable)
  obtain ⟨rest, image⟩ := Image.exists_append (whole.trans (behind.turns turns).backed)
  have exactly := hides_iff valid.grounded rest
  rw [← image] at exactly
  refine ⟨exactly, fun healthy quiet => exactly.mpr ?_⟩
  have between := Nat.lt_of_le_of_lt (size_mono (image_turns behind turns)) addressable
  have kept := image_turns_of_quiet (valid.of_moved moved between) behind quiet healthy addressable
  have old := image_of_moved_old valid.grounded moved rfl between
  rintro ⟨trailer, index, newest, past, -⟩
  have inside := (stop_of_valid newest.valid).2.2.1
  rw [kept, old] at inside
  omega

/-- Three bytes that could not be cut off close no checkpoint. -/
theorem failed_commit_hidden_after_three_bytes :
    ∃ session left error,
      session = (create { pageSize := 512 } { appends := [.succeed, .short 3], truncates := [.fail] }).run
        [.put [0x61] [0x31] .upsert] ∧
      session.step .commit = (.failed error, left) ∧ session.handle.Hides left.store.image := by
  obtain ⟨session, pending, left, named, reached, -, image, page, -, -, failed, short⟩ := torn_first_commit [.fail]
  have behind := reached.backed.of_moved (step_moved reached.backed.sound .commit)
  rw [failed] at behind
  have inside : left.handle.image.size ≤ left.store.image.size := size_mono behind.backed
  obtain ⟨hidden, -⟩ := failed_commit_hidden_iff reached failed [] (show left.handle.image.size < 256 ^ 8 by omega)
  refine ⟨session, left, _, named, failed, hidden.mpr ?_⟩
  rintro ⟨trailer, index, newest, past, -⟩
  obtain ⟨-, -, ends, aligned⟩ := stop_of_valid newest.valid
  replace ends : trailer.checkpointSize ≤ left.store.image.size := ends
  rw [page] at aligned
  omega

/-- A database is opened again, with a plan for the calls that follow, and a value is staged. -/
theorem reopened_value (reached : session.Reached) (addressable : session.handle.image.size < 256 ^ 8) {settings : Settings}
    (accepted : settings.validate = .ok ()) (plan : Plan) (read : (nextOutcome plan.reads).1 = .succeed) {key value : Bytes}
    (fits : Change.Fits ⟨key, some value⟩) :
    ∃ handle next pending,
      (load device .write settings { image := session.handle.image, plan }).1.result = .ok handle ∧
      next = (⟨handle, (load device .write settings { image := session.handle.image, plan }).2⟩ : Session).run
        [.put key value .upsert] ∧
      next.Reached ∧ Attempted next.handle pending ∧ next.handle.image = session.handle.image ∧
      next.handle.checkpoint = session.handle.checkpoint ∧ next.handle.settings = settings ∧
      next.store.plan = { plan with reads := (nextOutcome plan.reads).2 } ∧
      session.handle.image.size + pending.bytes.length
        = roundUp (session.handle.image.size + (17 + key.length + value.length) + 40) session.handle.pageSize := by
  obtain ⟨opened, left⟩ := load_of_read { image := session.handle.image, plan } .write
    (reached.valid addressable).grounded read rfl accepted
  have ran : (⟨session.handle.reopened .write settings device.location,
      (load device .write settings { image := session.handle.image, plan }).2⟩ : Session).run [.put key value .upsert]
      = ⟨(session.handle.reopened .write settings device.location).restaged (KeyMap.empty.insert key (.value value)),
        ({ image := session.handle.image, plan } : MemoryStore).readAll.2⟩ := by
    rw [left, run, step_put rfl, run]
    rfl
  have staged : Reached ((⟨session.handle.reopened .write settings device.location,
      (load device .write settings { image := session.handle.image, plan }).2⟩ : Session).run
        [.put key value .upsert]) := ⟨_, _, .intro opened, rfl⟩
  rw [ran] at staged
  obtain ⟨attempted, total⟩ := attempted_value staged addressable rfl rfl rfl fits
  exact ⟨_, _, _, opened, ran.symm, staged, attempted, rfl, rfl, rfl, rfl, total⟩

/-- A checkpoint that is appended whole is found, though its commit fails in the last sync. -/
theorem found_of_unsynced (valid : session.Valid) (attempted : Attempted session.handle pending)
    (sync : session.handle.settings.syncOnCommit = true)
    (planned : session.store.plan = { syncs := [.succeed, .fail], truncates := [.fail] })
    (addressable : session.handle.image.size + pending.bytes.length < 256 ^ 8) (longer : pending.bytes ≠ []) :
    ∃ left, session.step .commit = (.failed (.storage (refusal "sync")), left) ∧
      Opens left.store.image (fun fresh _ =>
        fresh.checkpoint = session.handle.image.size + pending.bytes.length ∧
          fresh.documents = session.handle.documents ∧ fresh.recovery = .clean) ∧
      ¬ session.handle.Hides left.store.image := by
  obtain ⟨failed, written⟩ := commit_of_unsynced attempted sync planned
  rw [valid.stored attempted.healthy] at written
  have found := opens_committed valid attempted addressable
  rw [← written] at found
  refine ⟨_, step_commit_eq_failed_iff.mpr ⟨failed, rfl⟩, found.mono fun fresh _ held => ⟨held.1, held.2.2⟩, ?_⟩
  intro hides
  obtain ⟨fresh, loaded, checkpoint, -⟩ := found .readOnly {} validate_default
  have same := (hides .readOnly {} { image := _ } fresh rfl loaded).1
  have inside := valid.grounded.checkpoint_le
  have positive := List.length_pos_of_ne_nil longer
  omega

/-- A second value is committed on a store whose second sync fails, and then the cut: the commit
fails, and every new opening finds its checkpoint. -/
theorem unsynced_checkpoint_is_found :
    ∃ file handle session left error,
      file = ((create { pageSize := 512 } {}).run [.put [0x61] [0x31] .upsert, .commit]).handle.image ∧
      (load device .write { pageSize := 512 }
        { image := file, plan := { syncs := [.succeed, .fail], truncates := [.fail] } }).1.result = .ok handle ∧
      session = (⟨handle, (load device .write { pageSize := 512 }
        { image := file, plan := { syncs := [.succeed, .fail], truncates := [.fail] } }).2⟩ : Session).run
          [.put [0x62] [0x32] .upsert] ∧
      session.handle.checkpoint = 1024 ∧ session.step .commit = (.failed error, left) ∧
      Opens left.store.image (fun fresh _ =>
        fresh.checkpoint = 1536 ∧ fresh.documents = session.handle.documents ∧ fresh.recovery = .clean) ∧
      ¬ session.handle.Hides left.store.image := by
  have valid : Settings.validate { pageSize := 512 } = .ok () := rfl
  have first : Change.Fits ⟨[0x61], some [0x31]⟩ := by decide
  have fits : Change.Fits ⟨[0x62], some [0x32]⟩ := by decide
  have room : roundUp (512 + (17 + [(0x61 : UInt8)].length + [(0x31 : UInt8)].length) + 40) 512 = 1024 := by decide
  have more : roundUp (1024 + (17 + [(0x62 : UInt8)].length + [(0x32 : UInt8)].length) + 40) 512 = 1536 := by decide
  have held := run_put_commit valid first (room ▸ by decide)
  have reached := reached_create valid [.put [0x61] [0x31] .upsert, .commit]
  obtain ⟨size, checkpoint⟩ := size_advanced_new valid [0x61] [0x31]
  rw [room, ← held] at size checkpoint
  have page : ((create { pageSize := 512 } {}).run [.put [0x61] [0x31] .upsert, .commit]).handle.pageSize = 512 := by
    rw [held]
    rfl
  obtain ⟨handle, session, pending, opened, named, again, attempted, image, current, settings, plan, total⟩ :=
    reopened_value reached (by rw [size]; decide) valid { syncs := [.succeed, .fail], truncates := [.fail] } rfl fits
  rw [size, page, more] at total
  rw [checkpoint] at current
  replace size := (congrArg Image.size image).trans size
  obtain ⟨left, failed, found, shown⟩ := found_of_unsynced (again.valid (by omega)) attempted (by rw [settings]) plan
    (by omega) (List.ne_nil_of_length_pos (by omega))
  rw [size, total] at found
  exact ⟨_, handle, session, left, _, rfl, opened, named, current, failed, found, shown⟩

end Session
end CheckpointStore
