import Mathlib.Order.Bounds.Basic
import CheckpointStore.Proofs.Histories

/-!
# Checkpoint identifiers

A handle lists the identifiers of its checkpoints and keeps the trailer of the newest, and its image
has the trailers of them all. The three agree in every handle and every view that can be come by. The
list changes where a commit appends a checkpoint, and there it gets the new end of the file.
-/

namespace CheckpointStore

theorem isLeast_roundUp (value : Nat) {multiple : Nat} (positive : 0 < multiple) :
    IsLeast {stop | multiple ∣ stop ∧ value ≤ stop} (roundUp value multiple) := by
  refine ⟨⟨Nat.dvd_of_mod_eq_zero (roundUp_mod value multiple), le_roundUp value positive⟩, ?_⟩
  rintro stop ⟨aligned, above⟩
  have less := roundUp_lt value positive
  exact Nat.le_of_lt_add_of_dvd (by omega) (Nat.dvd_of_mod_eq_zero (roundUp_mod value multiple)) aligned

section Walk

variable {image : Image} {pageSize stop : Nat} {trailers : List Trailer}

theorem Walk.previous (walk : Walk image pageSize stop trailers) {trailer : Trailer}
    (read : Trailer.readEndingAt image stop pageSize = .ok trailer) :
    (trailers.map Trailer.checkpointSize)[1]?.getD 0 = trailer.previousCheckpoint := by
  have above := (stop_of_read read).2.1
  cases walk with
  | header => omega
  | step again rest =>
    obtain rfl := Except.ok.inj (read.symm.trans again)
    rw [List.map_cons, List.getElem?_cons_succ, ← List.head?_eq_getElem?]
    exact rest.newest

theorem Walk.placed (walk : Walk image pageSize stop trailers) {trailer : Trailer} (mem : trailer ∈ trailers) :
    pageSize ∣ trailer.checkpointSize ∧ 2 * pageSize ≤ trailer.checkpointSize ∧ trailer.checkpointSize ≤ image.size := by
  have read := walk.read trailer mem
  obtain ⟨-, -, inside, aligned⟩ := stop_of_read read
  obtain ⟨page, place, two⟩ := page_of_read read
  refine ⟨Nat.dvd_of_mod_eq_zero aligned, ?_, inside⟩
  rw [place]
  exact Nat.mul_le_mul_right pageSize two

/-- Each trailer that is passed names the one that is passed next, and the last names none. -/
theorem Walk.linked (walk : Walk image pageSize stop trailers) {newer older : List Trailer} {trailer : Trailer}
    (split : trailers = newer ++ trailer :: older) :
    trailer.previousCheckpoint = (older.map Trailer.checkpointSize).head?.getD 0 := by
  induction walk generalizing newer with
  | header => simp at split
  | step read rest ih =>
    cases newer with
    | nil =>
      obtain ⟨rfl, rfl⟩ := List.cons.inj split
      exact rest.newest.symm
    | cons first newer => exact ih (List.cons.inj split).2

end Walk

namespace Handle

variable {handle : Handle}

/-- The history says what the current trailer and the image say. -/
structure Chronicled (handle : Handle) : Prop where
  descending : handle.history.Pairwise (· > ·)
  placed : ∀ id ∈ handle.history, handle.pageSize ∣ id ∧ 2 * handle.pageSize ≤ id ∧ id ≤ handle.image.size
  newest : handle.history.head?.getD 0 = handle.checkpoint
  before : handle.history[1]?.getD 0 = handle.previousCheckpoint
  linked : ∀ newer id older, handle.history = newer ++ id :: older →
    ∃ trailer, Trailer.readEndingAt handle.image id handle.pageSize = .ok trailer ∧
      trailer.previousCheckpoint = older.head?.getD 0

theorem Charted.chronicled (charted : handle.Charted) : handle.Chronicled := by
  obtain ⟨trailers, walk, history⟩ := charted.walk
  refine ⟨?_, ?_, ?_, ?_, ?_⟩
  · rw [history]
    exact List.pairwise_map.mpr walk.descending
  · rw [history]
    intro id mem
    obtain ⟨trailer, here, rfl⟩ := List.mem_map.mp mem
    exact walk.placed here
  · rw [history]
    exact walk.newest
  · rw [history]
    cases current : handle.current with
    | none =>
      rw [checkpoint_of_fresh current] at walk
      rw [walk.eq_nil, previousCheckpoint, current]
      rfl
    | some trailer =>
      rw [previousCheckpoint, current]
      exact walk.previous (charted.current trailer current)
  · intro newer id older split
    rw [history] at split
    obtain ⟨passed, later, rfl, -, rest⟩ := List.map_eq_append_iff.mp split
    obtain ⟨trailer, behind, rfl, rfl, rfl⟩ := List.map_eq_cons_iff.mp rest
    exact ⟨trailer, walk.read trailer (by simp), walk.linked rfl⟩

theorem Charted.of_same {a b : Handle} (charted : a.Charted) (image : b.image = a.image) (header : b.header = a.header)
    (current : b.current = a.current) (checkpoints : b.checkpoints = a.checkpoints) (index : b.index = a.index) :
    b.Charted := by
  have page : b.pageSize = a.pageSize := congrArg Header.pageSize header
  have checkpoint : b.checkpoint = a.checkpoint := by rw [Handle.checkpoint, current, ← Handle.checkpoint]
  have history : b.history = a.history := congrArg List.reverse checkpoints
  refine ⟨?_, ?_, ?_⟩
  · rw [image, page, checkpoint, current]
    exact charted.current
  · rw [image, page, checkpoint, history]
    exact charted.walk
  · rw [image, page, checkpoint, index, charted.index]

theorem viewAt_frame {checkpoint : Nat} {view : Handle} (viewed : (handle.viewAt checkpoint).result = .ok view) :
    view.access = .view ∧ view.staged = KeyMap.empty ∧ view.image = handle.image := by
  unfold viewAt at viewed
  split at viewed
  · contradiction
  · obtain rfl := Except.ok.inj viewed
    exact ⟨rfl, rfl, rfl⟩

end Handle

namespace Session

open Handle MemoryStore

variable {session after : Session} {answer : Answer}

/-- The sessions that openings, operations and views lead to, whatever calls to a store fail. -/
inductive Reachable : Session → Prop where
  | opened {session : Session} (opened : Opened session) : Reachable session
  | step {session : Session} (before : Reachable session) (operation : Operation) : Reachable (session.step operation).2
  | view {session : Session} (before : Reachable session) {checkpoint : Nat} {view : Handle}
      (viewed : (session.handle.viewAt checkpoint).result = .ok view) : Reachable ⟨view, session.store⟩

theorem Reachable.sound (reachable : session.Reachable) : session.handle.Sound := by
  induction reachable with
  | opened opened => exact opened.valid.sound
  | step before operation ih => exact sound_of_moved ih (step_moved ih operation)
  | view before viewed ih => exact Sound.of_staged_empty (viewAt_frame viewed).2.1

theorem Reachable.run (reachable : session.Reachable) (operations : List Operation) :
    (session.run operations).Reachable := by
  induction operations generalizing session with
  | nil => exact reachable
  | cons operation rest ih => exact ih (reachable.step operation)

/-- A handle on a store is valid with it, and a view is of one of the checkpoints of its image. -/
def Kept (session : Session) : Prop :=
  session.Valid ∨
    (session.handle.access = .view ∧ session.handle.Charted ∧ isPageSize session.handle.pageSize = true)

theorem Kept.valid (kept : session.Kept) (writable : session.handle.access = .write) : session.Valid := by
  obtain valid | ⟨viewed, -⟩ := kept
  · exact valid
  · exact absurd (viewed.symm.trans writable) nofun

theorem Kept.charted (kept : session.Kept) : session.handle.Charted := by
  obtain valid | ⟨-, charted, -⟩ := kept
  · exact valid.grounded.charted
  · exact charted

theorem Kept.sized (kept : session.Kept) : isPageSize session.handle.pageSize = true := by
  obtain valid | ⟨-, -, sized⟩ := kept
  · exact valid.grounded.pageSize_bounds.1
  · exact sized

/-- What a step does to a view is no more than to refuse. -/
theorem moved_view (viewed : session.handle.access = .view) (moved : Moved session answer after) :
    answer.isNew session.handle.checkpoint = false ∧ after.handle.access = .view ∧
      ∃ staged, after.handle = session.handle.restaged staged := by
  have closed : session.handle.access ≠ .write := by
    rw [viewed]
    exact nofun
  cases moved with
  | restaged staged sound old => exact ⟨old, viewed, staged, rfl⟩
  | committed outcome =>
    cases outcome with
    | refused events cause => exact ⟨rfl, viewed, session.handle.staged, rfl⟩
    | skipped events writable healthy nothing => exact absurd writable closed
    | appended attempted image => exact absurd attempted.writable closed
    | cut events attempted split image => exact absurd attempted.writable closed
    | stuck events attempted split image => exact absurd attempted.writable closed

theorem Kept.of_moved (kept : session.Kept) (moved : Moved session answer after)
    (addressable : after.handle.image.size < 256 ^ 8) : after.Kept := by
  obtain valid | ⟨viewed, charted, sized⟩ := kept
  · exact .inl (valid.of_moved moved addressable)
  · obtain ⟨-, still, staged, same⟩ := moved_view viewed moved
    refine .inr ⟨still, ?_⟩
    rw [same]
    exact ⟨charted.of_same rfl rfl rfl rfl rfl, sized⟩

theorem Reachable.kept (reachable : session.Reachable) (addressable : session.handle.image.size < 256 ^ 8) :
    session.Kept := by
  induction reachable with
  | opened opened => exact .inl opened.valid
  | step before operation ih =>
    -- no step makes an image shorter
    have moved := step_moved before.sound operation
    exact (ih (Nat.lt_of_le_of_lt (size_mono (image_of_moved moved)) addressable)).of_moved moved addressable
  | view before viewed ih =>
    obtain ⟨closed, -, image⟩ := viewAt_frame viewed
    dsimp only at addressable
    rw [image] at addressable
    obtain ⟨charted, -, header⟩ := (ih addressable).charted.of_viewAt viewed
    refine .inr ⟨closed, charted, ?_⟩
    rw [pageSize, header]
    exact (ih addressable).sized

/-- A step that is not answered with a new identifier leaves the history and the image. -/
theorem Kept.of_old (kept : session.Kept) (moved : Moved session answer after)
    (old : answer.isNew session.handle.checkpoint = false) (addressable : after.handle.image.size < 256 ^ 8) :
    after.handle.history = session.handle.history ∧ after.handle.image = session.handle.image := by
  obtain valid | ⟨viewed, -⟩ := kept
  · cases moved with
    | restaged staged sound old => exact ⟨rfl, rfl⟩
    | committed outcome =>
      cases outcome with
      | appended attempted image =>
        rw [isNew_of_attempted valid.grounded attempted addressable] at old
        contradiction
      | refused events cause => exact ⟨rfl, rfl⟩
      | skipped events writable healthy nothing => exact ⟨rfl, rfl⟩
      | cut events attempted split image => exact ⟨rfl, rfl⟩
      | stuck events attempted split image => exact ⟨rfl, rfl⟩
  · obtain ⟨-, -, staged, same⟩ := moved_view viewed moved
    rw [same]
    exact ⟨rfl, rfl⟩

/-- A new identifier is the new end of the file, and the first place for one past the blocks. -/
theorem Kept.of_new (kept : session.Kept) (moved : Moved session answer after)
    (new : answer.isNew session.handle.checkpoint = true) (addressable : after.handle.image.size < 256 ^ 8) :
    ∃ id, answer = .committed id ∧ session.handle.image.size < id ∧ after.handle.image.size = id ∧
      IsLeast {stop | session.handle.pageSize ∣ stop ∧
        session.handle.image.size + (session.handle.staged.changes.flatMap Change.encode).length + 40 ≤ stop} id ∧
      after.handle.history = id :: session.handle.history := by
  obtain valid | ⟨viewed, -⟩ := kept
  · cases moved with
    | restaged staged sound old => exact absurd new (Bool.eq_false_iff.mp old)
    | committed outcome =>
      cases outcome with
      | refused events cause => contradiction
      | skipped events writable healthy nothing => simp [Answer.ofCommit, Answer.isNew] at new
      | cut events attempted split image => contradiction
      | stuck events attempted split image => contradiction
      | appended attempted image =>
        obtain ⟨same, answered, -⟩ := advance_of_attempted valid.grounded attempted addressable
        have bounds := valid.grounded.pageSize_bounds
        have size := valid.grounded.size_advanced session.handle.staged.changes
        have room := valid.grounded.room_laidOut session.handle.staged.changes
        dsimp only
        rw [answered, same, size]
        refine ⟨_, rfl, by omega, rfl, isLeast_roundUp _ (by omega), ?_⟩
        exact List.reverse_append
  · rw [(moved_view viewed moved).1] at new
    contradiction

/-- In every session that can be come by the history descends from the current checkpoint along the
trailers of the image. A commit that appends puts the new end of the file before it, and nothing else
changes it. -/
theorem history_invariant (reachable : session.Reachable) (addressable : session.handle.image.size < 256 ^ 8) :
    session.handle.Chronicled ∧
      ∀ operation answer after, session.step operation = (answer, after) → after.handle.image.size < 256 ^ 8 →
        (session.appends operation = false →
          after.handle.history = session.handle.history ∧ after.handle.image = session.handle.image) ∧
        (session.appends operation = true →
          ∃ id, answer = .committed id ∧ session.handle.image.size < id ∧ after.handle.image.size = id ∧
            IsLeast {stop | session.handle.pageSize ∣ stop ∧
              session.handle.image.size + (session.handle.staged.changes.flatMap Change.encode).length + 40 ≤ stop} id ∧
            after.handle.history = id :: session.handle.history) := by
  have kept := reachable.kept addressable
  refine ⟨kept.charted.chronicled, fun operation answer after stepped later => ?_⟩
  have moved := step_moved reachable.sound operation
  unfold appends
  rw [stepped] at moved ⊢
  exact ⟨fun old => kept.of_old moved old later, fun new => kept.of_new moved new later⟩

/-- The first commit of a database with pages of 512 bytes gets 1024, the second boundary. -/
theorem history_invariant_at_first_commit :
    ∃ session after, session = (create { pageSize := 512 } {}).run [.put [0x61] [0x31] .upsert] ∧
      session.step .commit = (.committed 1024, after) ∧ session.handle.history = [] ∧
      after.handle.history = [1024] ∧ after.handle.Chronicled := by
  have accepted : Settings.validate { pageSize := 512 } = .ok () := rfl
  have fits : Change.Fits ⟨[0x61], some [0x31]⟩ := by decide
  obtain ⟨session, pending, named, reached, attempted, image, fresh, page, -, total, plan⟩ :=
    first_value_planned {} rfl rfl rfl fits
  replace total : 512 + pending.bytes.length = 1024 := total.trans (by decide)
  have grounded := (reached.valid (by omega)).grounded
  have committed := step_commit_of_attempted grounded attempted plan (by omega)
  rw [image, total] at committed
  have reachable : session.Reachable := by
    rw [named]
    exact .step (.opened (opened_create accepted rfl rfl rfl)) (.put [0x61] [0x31] .upsert)
  have size : (session.handle.advanced session.handle.staged.changes).image.size = 1024 := by
    obtain ⟨-, -, built⟩ := attempted_spec attempted
    show (session.handle.image ++ Image.ofBytes (session.handle.laidOut session.handle.staged.changes).bytes).size = 1024
    rw [← built, Image.size_append, Image.size_ofBytes, image, total]
  have appended : session.appends .commit = true := by
    rw [appends, committed, fresh]
    rfl
  have none : session.handle.history = [] := by
    rw [named]
    rfl
  obtain ⟨-, steps⟩ := history_invariant reachable (by omega)
  obtain ⟨id, answered, -, -, -, history⟩ := (steps .commit _ _ committed (by rw [size]; decide)).2 appended
  obtain rfl := Answer.committed.inj answered
  have next : (session.step .commit).2.Reachable := .step reachable .commit
  rw [committed] at next
  rw [none] at history
  exact ⟨session, _, named, committed, none, history, (history_invariant next (by rw [size]; decide)).1⟩

end Session
end CheckpointStore
