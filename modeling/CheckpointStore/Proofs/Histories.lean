import CheckpointStore.Proofs.Crashes
import CheckpointStore.Proofs.Turns
import CheckpointStore.Proofs.Views

/-!
# Views of committed states

As long as every failed append is cut off again, a file only grows. Each checkpoint that was ever
committed stays on the chain of every handle on the file, and its view reads as the handle did
right after that commit.
-/

namespace CheckpointStore
namespace Handle

open MemoryStore

variable {handle a b c : Handle}

/-- The later handle has all the bytes of the earlier one, and its checkpoints. -/
structure Grown (a b : Handle) : Prop where
  image : a.image.bytes <+: b.image.bytes
  header : b.header = a.header
  checkpoints : a.checkpoints <+: b.checkpoints

theorem Grown.refl (handle : Handle) : handle.Grown handle := ⟨List.prefix_rfl, rfl, List.prefix_rfl⟩

theorem Grown.trans (first : a.Grown b) (second : b.Grown c) : a.Grown c :=
  ⟨first.image.trans second.image, second.header.trans first.header, first.checkpoints.trans second.checkpoints⟩

/-- The handle itself, its views and their views. -/
inductive Shows (handle : Handle) : Handle → Prop where
  | itself : Shows handle handle
  | view {seen view : Handle} {checkpoint : Nat} (shown : Shows handle seen)
      (viewed : (seen.viewAt checkpoint).result = .ok view) : Shows handle view

theorem Charted.of_viewAt (charted : handle.Charted) {checkpoint : Nat} {view : Handle}
    (viewed : (handle.viewAt checkpoint).result = .ok view) :
    view.Charted ∧ view.image = handle.image ∧ view.header = handle.header := by
  by_cases zero : checkpoint = 0
  · subst zero
    obtain ⟨found, result, again, image, header, -⟩ := handle.viewAt_zero
    obtain rfl := Except.ok.inj (viewed.symm.trans result)
    exact ⟨again, image, header⟩
  · by_cases mem : checkpoint ∈ handle.history
    · obtain ⟨found, result, again, image, header, -⟩ := charted.viewAt_of_mem mem
      obtain rfl := Except.ok.inj (viewed.symm.trans result)
      exact ⟨again, image, header⟩
    · exact absurd (viewed.symm.trans (viewAt_of_not_mem zero mem)) nofun

theorem Shows.charted {seen : Handle} (shown : handle.Shows seen) (charted : handle.Charted) :
    seen.Charted ∧ seen.image = handle.image ∧ seen.header = handle.header := by
  induction shown with
  | itself => exact ⟨charted, rfl, rfl⟩
  | view shown viewed ih =>
    obtain ⟨before, image, header⟩ := ih
    obtain ⟨again, same, alike⟩ := before.of_viewAt viewed
    exact ⟨again, same.trans image, alike.trans header⟩

theorem documents_new (settings : Settings) : (new settings).documents = [] := by
  show mergeEntries _ _ (KeyMap.startingAt KeyMap.empty []) (KeyMap.startingAt LiveIndex.empty.entries []) = []
  simp [KeyMap.startingAt, LiveIndex.empty, mergeEntries]

/-- At checkpoint zero there is nothing to be read. -/
theorem Charted.sameReadings_new (charted : handle.Charted) (zero : handle.checkpoint = 0)
    (bare : handle.staged = KeyMap.empty) (settings : Settings) : handle.SameReadings (new settings) := by
  obtain ⟨trailers, walk, history⟩ := charted.walk
  have index := charted.index
  rw [zero] at walk index
  rw [LiveIndex.build, chain_zero] at index
  have none : handle.index = LiveIndex.empty := (Except.ok.inj index).symm
  have checkpoints : handle.checkpoints = [] := by
    rw [walk.eq_nil] at history
    exact List.reverse_eq_nil_iff.mp history
  refine SameReadings.of_committed? bare rfl (fun key => ?_) (charted.checkpoint_eq_zero_iff.mp zero) checkpoints
  unfold committed?
  rw [none]
  rfl

end Handle

namespace Session

open Handle MemoryStore

variable {session after start : Session} {answer : Answer}

/-- The live handle, or one that opening the store gives, whatever calls are planned to fail. -/
def Finds (session : Session) (handle : Handle) : Prop :=
  handle = session.handle ∨
    ∃ mode settings store, store.image = session.store.image ∧ (load device mode settings store).1.result = .ok handle

theorem grown_of_moved (grounded : session.handle.Grounded) (moved : Moved session answer after)
    (addressable : after.handle.image.size < 256 ^ 8) : session.handle.Grown after.handle := by
  cases moved with
  | restaged staged sound old => exact ⟨List.prefix_rfl, rfl, List.prefix_rfl⟩
  | committed outcome =>
    cases outcome with
    | appended attempted image =>
      obtain ⟨same, -, -⟩ := advance_of_attempted grounded attempted addressable
      dsimp only
      rw [same]
      refine ⟨?_, rfl, List.prefix_append _ _⟩
      show _ <+: (session.handle.image ++ _).bytes
      rw [Image.bytes_append]
      exact List.prefix_append _ _
    | _ => exact ⟨List.prefix_rfl, rfl, List.prefix_rfl⟩

theorem grown_turn (valid : session.Valid) (backed : session.Backed) (healthy : session.handle.poisoned = false) (turn : Turn)
    (addressable : (session.turn turn).handle.image.size < 256 ^ 8) : session.handle.Grown (session.turn turn).handle := by
  cases turn with
  | operate operation => exact grown_of_moved valid.grounded (step_moved backed.sound operation) addressable
  | reopen mode settings =>
    obtain ⟨image, header, checkpoints⟩ := valid.of_reopened healthy (reopened backed mode settings)
    exact ⟨image ▸ List.prefix_rfl, header, checkpoints ▸ List.prefix_rfl⟩

theorem grown_turns {turns : List Turn} (valid : session.Valid) (backed : session.Backed) (healthy : session.Unpoisoned turns)
    (addressable : (session.turns turns).handle.image.size < 256 ^ 8) :
    session.handle.Grown (session.turns turns).handle := by
  induction turns generalizing session with
  | nil => exact .refl _
  | cons turn rest ih =>
    have next := turned backed turn
    have behind := backed.of_turned next
    have between := Nat.lt_of_le_of_lt (size_mono (image_turns behind rest)) addressable
    exact (grown_turn valid backed healthy.here turn between).trans
      (ih (valid.of_turned next between) behind healthy.later addressable)

/-- A step that is answered with a new identifier has made it the current one, with nothing staged. -/
theorem advanced_of_isNew (grounded : session.handle.Grounded) (moved : Moved session answer after)
    (new : answer.isNew session.handle.checkpoint = true) (addressable : after.handle.image.size < 256 ^ 8) :
    answer = .committed after.handle.checkpoint ∧ after.handle.staged = KeyMap.empty ∧ after.handle.checkpoint ≠ 0 := by
  cases moved with
  | restaged staged sound old => exact absurd new (Bool.eq_false_iff.mp old)
  | committed outcome =>
    cases outcome with
    | refused events cause => contradiction
    | skipped events writable healthy nothing => simp [Answer.ofCommit, Answer.isNew] at new
    | cut events attempted split image => contradiction
    | stuck events attempted split image => contradiction
    | appended attempted image =>
      obtain ⟨same, answered, advanced⟩ := advance_of_attempted grounded attempted addressable
      have size := grounded.size_advanced session.handle.staged.changes
      have filled := advanced.pageSize_bounds
      dsimp only
      rw [answered, same]
      refine ⟨congrArg Answer.committed size, rfl, ?_⟩
      show (session.handle.laidOut session.handle.staged.changes).trailer.checkpointSize ≠ 0
      omega

theorem Finds.same {handle : Handle} (found : session.Finds handle) (valid : session.Valid)
    (healthy : session.handle.poisoned = false) :
    handle.Charted ∧ handle.image = session.handle.image ∧ handle.header = session.handle.header ∧
      handle.checkpoints = session.handle.checkpoints := by
  obtain rfl | ⟨mode, settings, store, image, opened⟩ := found
  · exact ⟨valid.grounded.charted, rfl, rfl, rfl⟩
  · obtain ⟨left, grounded, -⟩ := of_load opened
    have stored := image.trans (valid.stored healthy)
    have filled : 0 < store.image.size := by
      have bounds := valid.grounded.pageSize_bounds
      rw [stored]
      omega
    have same : handle.image = session.handle.image := (left.symm.trans (image_load store mode settings filled)).trans stored
    obtain ⟨header, -, checkpoints, -⟩ := valid.grounded.unique grounded same
    exact ⟨grounded.charted, same, header, checkpoints⟩

/-- Every identifier that a commit was answered with can be viewed ever after, and the view reads
as the handle did when the commit returned. Checkpoint zero is the empty database, and no other
identifier is known. -/
theorem committed_states_stay_viewable (opened : Opened start) (turns : List Turn) (healthy : start.Unpoisoned turns)
    (addressable : (start.turns turns).handle.image.size < 256 ^ 8) {handle : Handle}
    (found : (start.turns turns).Finds handle) :
    (∀ earlier later checkpoint after, turns = earlier ++ .operate .commit :: later →
      (start.turns earlier).step .commit = (.committed checkpoint, after) →
      (start.turns earlier).appends .commit = true →
      checkpoint ∈ handle.history ∧ ∀ seen, handle.Shows seen → checkpoint ∈ seen.history →
        ∃ view, (seen.viewAt checkpoint).result = .ok view ∧ view.SameReadings after.handle) ∧
      ∀ seen, handle.Shows seen →
        (∃ view, (seen.viewAt 0).result = .ok view ∧ view.documents = [] ∧ view.SameReadings (new {})) ∧
          ∀ unknown, unknown ≠ 0 → unknown ∉ seen.history →
            ∃ error, (seen.viewAt unknown).result = .error error ∧ error.code = "KEEL_UNKNOWN_CHECKPOINT" := by
  have now := opened.valid.turns opened.backed turns addressable
  obtain ⟨charted, image, header, checkpoints⟩ := found.same now healthy.last
  constructor
  · rintro earlier later checkpoint after rfl committed appended
    have next : (start.turns earlier).turn (.operate .commit) = after := congrArg Prod.snd committed
    have split : start.turns (earlier ++ .operate .commit :: later) = after.turns later := by
      rw [turns_append, Session.turns, next]
    rw [split] at addressable image header checkpoints
    have behind := healthy.append.2.later
    rw [next] at behind
    have backed := opened.backed.turns earlier
    have moved : Moved (start.turns earlier) (.committed checkpoint) after := by
      have moved := step_moved backed.sound .commit
      rwa [committed] at moved
    have kept := backed.of_moved moved
    -- no image of the run is longer than the last
    have between := Nat.lt_of_le_of_lt (size_mono (image_turns kept later)) addressable
    have valid := opened.valid.turns opened.backed earlier
      (Nat.lt_of_le_of_lt (size_mono (image_of_moved moved)) between)
    have new : (Answer.committed checkpoint).isNew (start.turns earlier).handle.checkpoint = true := by
      rw [appends, committed] at appended
      exact appended
    obtain ⟨answered, bare, positive⟩ := advanced_of_isNew valid.grounded moved new between
    obtain rfl := Answer.committed.inj answered
    have settled := valid.of_moved moved between
    have grown := grown_turns settled kept behind addressable
    have mem := settled.grounded.charted.checkpoint_mem positive
    constructor
    · rw [Handle.history, checkpoints]
      exact List.mem_reverse.mpr (grown.checkpoints.subset (List.mem_reverse.mp mem))
    · intro seen shown here
      obtain ⟨before, same, alike⟩ := shown.charted charted
      obtain ⟨view, result, again, viewed, titled, stands, clear⟩ := before.viewAt_of_mem here
      refine ⟨view, result, again.sameReadings settled.grounded.charted ?_ ?_ stands clear bare⟩
      · rw [viewed, same, image]
        exact grown.image
      · rw [titled, alike, header, grown.header]
  · intro seen shown
    obtain ⟨here, -, -⟩ := shown.charted charted
    constructor
    · obtain ⟨view, result, empty, -, -, zero, bare⟩ := seen.viewAt_zero
      have readings := empty.sameReadings_new zero bare {}
      exact ⟨view, result, readings.documents.trans (documents_new {}), readings⟩
    · intro unknown committed absent
      exact ⟨_, viewAt_of_not_mem committed absent, rfl⟩

theorem get?_staged (handle : Handle) (key value : Bytes) :
    (handle.restaged (KeyMap.empty.insert key (.value value))).get? key = some value :=
  get?_of_written ((KeyMap.get?_insert _ _ _ _).trans (if_pos rfl)) rfl

/-- The value is staged anew after its commit, and the view of that commit still has the old one. -/
theorem replaced_value_stays_viewable :
    ∃ session view,
      session = (create { pageSize := 512 } {}).turns
        ([.put [0x61] [0x31] .upsert, .commit, .put [0x61] [0x32] .upsert].map .operate) ∧
      session.handle.get? [0x61] = some [0x32] ∧ (session.handle.viewAt 1024).result = .ok view ∧
      view.get? [0x61] = some [0x31] := by
  have accepted : Settings.validate { pageSize := 512 } = .ok () := rfl
  have fits : Change.Fits ⟨[0x61], some [0x31]⟩ := by decide
  have room : roundUp (512 + (17 + [(0x61 : UInt8)].length + [(0x31 : UInt8)].length) + 40) 512 = 1024 := by decide
  have held := run_put_commit_put accepted fits (room ▸ by decide) [0x61] [0x32]
  obtain ⟨size, -⟩ := size_advanced_new accepted [0x61] [0x31]
  have opened : Opened (create { pageSize := 512 } {}) := opened_create accepted rfl rfl rfl
  have cuts : Cuts (create { pageSize := 512 } {}).store := by
    rw [Cuts, plan_create accepted rfl rfl rfl]
    exact fun _ planned => absurd planned List.not_mem_nil
  obtain ⟨first, pending, named, reached, attempted, image, fresh, -, -, total, plan⟩ :=
    first_value_planned {} rfl rfl rfl fits
  rw [room] at size total
  have grounded := (reached.valid (by omega)).grounded
  have committed := step_commit_of_attempted grounded attempted plan (by omega)
  rw [image, total] at committed
  have ran := turns_operate (create { pageSize := 512 } {})
    [.put [0x61] [0x31] .upsert, .commit, .put [0x61] [0x32] .upsert]
  have before := turns_operate (create { pageSize := 512 } {}) [.put [0x61] [0x31] .upsert]
  rw [← named] at before
  have addressable : ((create { pageSize := 512 } {}).turns
      ([.put [0x61] [0x31] .upsert, .commit, .put [0x61] [0x32] .upsert].map .operate)).handle.image.size < 256 ^ 8 := by
    rw [ran, held]
    show ((new { pageSize := 512 }).advanced [⟨[0x61], some [0x31]⟩]).image.size < 256 ^ 8
    rw [size]
    decide
  have healthy : (create { pageSize := 512 } {}).handle.poisoned = false := rfl
  have unpoisoned := unpoisoned_of_cuts ([.put [0x61] [0x31] .upsert, .commit, .put [0x61] [0x32] .upsert].map .operate)
    opened.valid.sound healthy cuts
  have live : Finds ((create { pageSize := 512 } {}).turns
    ([.put [0x61] [0x31] .upsert, .commit, .put [0x61] [0x32] .upsert].map .operate)) _ := .inl rfl
  obtain ⟨views, -⟩ := committed_states_stay_viewable opened _ unpoisoned addressable live
  have appended : first.appends .commit = true := by
    rw [appends, committed, fresh]
    rfl
  obtain ⟨mem, shown⟩ := views ([.put [0x61] [0x31] .upsert].map .operate) ([.put [0x61] [0x32] .upsert].map .operate)
    1024 _ rfl (by rw [before]; exact committed) (by rw [before]; exact appended)
  obtain ⟨view, viewed, readings⟩ := shown _ .itself mem
  refine ⟨_, view, rfl, ?_, viewed, ?_⟩
  · rw [ran, held]
    exact get?_staged _ _ _
  · obtain ⟨count, fit, built⟩ := attempted_spec attempted
    have longer : (first.handle.advanced first.handle.staged.changes).image.size < 256 ^ 8 := by
      rw [show (first.handle.advanced first.handle.staged.changes).image
        = first.handle.image ++ Image.ofBytes pending.bytes by rw [built]; rfl, Image.size_append, Image.size_ofBytes]
      omega
    rw [readings.get, grounded.get?_advanced count fit longer, named, run_put]
    exact get?_staged _ _ _

end Session
end CheckpointStore
