import CheckpointStore.Proofs.Reopenings

/-!
# Interrupted commits

What a crash leaves of a commit is the image with some first bytes of the checkpoint behind it. A
committed database opens as it was, unless those bytes themselves close a valid checkpoint: the
scan cannot tell a trailer from a document that spells one. A database that was never committed
opens as long as they reach no page boundary.
-/

namespace CheckpointStore
namespace Handle

open MemoryStore

variable {handle : Handle} {part : Bytes}

theorem validate_default : Settings.validate {} = .ok () := rfl

theorem Opens.exists_grounded {image : Image} {holds : Handle → MemoryStore → Prop} (opens : Opens image holds)
    (filled : 0 < image.size) : ∃ fresh after, fresh.Grounded ∧ fresh.image = image ∧ holds fresh after := by
  obtain ⟨fresh, opened, held⟩ := opens .readOnly {} validate_default
  obtain ⟨stored, grounded, -⟩ := of_load opened
  exact ⟨fresh, _, grounded, stored.symm.trans (image_load _ .readOnly {} filled), held⟩

theorem documents_reopened_behind (grounded : handle.Grounded) (rest : Image) (mode : OpenMode) (settings : Settings)
    (location : String) :
    ((handle.behind rest).reopened mode settings location).documents = handle.revert.1.documents := by
  have plain : handle.revert.1.Grounded := grounded.of_same rfl rfl rfl rfl rfl
  exact plain.documentsFrom_behind (Sound.of_staged_empty rfl) rest []

/-- Behind the whole checkpoint a file opens clean, with the staged changes applied. -/
theorem opens_advanced (grounded : handle.Grounded) (sound : handle.Sound)
    (count : handle.staged.changes.length < PendingCheckpoint.countLimit)
    (fit : ∀ change ∈ handle.staged.changes, change.Fits)
    (addressable : (handle.advanced handle.staged.changes).image.size < 256 ^ 8) :
    Opens (handle.advanced handle.staged.changes).image fun fresh _ =>
      fresh.checkpoint = (handle.advanced handle.staged.changes).image.size ∧
        fresh.history = (handle.advanced handle.staged.changes).image.size :: handle.history ∧
        fresh.documents = handle.documents ∧ fresh.recovery = .clean := by
  have size := grounded.size_advanced handle.staged.changes
  have advanced := grounded_advanced grounded count fit addressable
  refine opens_of_grounded advanced fun mode settings location after same faultless => ⟨size.symm, ?_, ?_, ?_⟩
  · show (handle.checkpoints ++ [_]).reverse = _
    rw [List.reverse_append, size]
    rfl
  · exact documentsFrom_congr (Sound.of_staged_empty rfl) sound
      (fun key => grounded.get?_advanced count fit addressable) []
  · exact if_pos size.symm

theorem pageSize_of_image_append {fresh : Handle} (grounded : handle.Grounded) (whole : fresh.Grounded) {rest : Image}
    (image : fresh.image = handle.image ++ rest) : fresh.pageSize = handle.pageSize := by
  have header := whole.header
  rw [image, (grounded.parts_behind rest).1] at header
  exact congrArg Header.pageSize (Except.ok.inj header).symm

theorem Opens.mono {image : Image} {holds weaker : Handle → MemoryStore → Prop} (opens : Opens image holds)
    (implies : ∀ fresh after, holds fresh after → weaker fresh after) : Opens image weaker := by
  intro mode settings valid
  obtain ⟨fresh, opened, held⟩ := opens mode settings valid
  exact ⟨fresh, opened, implies _ _ held⟩

/-- Where the current checkpoint is found again no boundary behind the image validates. -/
theorem refused_of_opens (grounded : handle.Grounded) (committed : handle.checkpoint ≠ 0) {rest : Image}
    (opens : Opens (handle.image ++ rest) fun fresh _ => fresh.checkpoint = handle.checkpoint) :
    ∀ stop trailer, handle.image.size < stop →
      validateCheckpoint (handle.image ++ rest) stop handle.pageSize ≠ .ok trailer := by
  have bounds := grounded.pageSize_bounds
  have below := grounded.checkpoint_le
  obtain ⟨fresh, -, whole, image, checkpoint⟩ := opens.exists_grounded (by rw [Image.size_append]; omega)
  have page := pageSize_of_image_append grounded whole image
  intro stop trailer later valid
  obtain ⟨found, here⟩ := Option.ne_none_iff_exists'.mp (mt whole.checkpoint_eq_zero_iff.mpr (checkpoint ▸ committed))
  rw [checkpoint_of_current here] at checkpoint
  have newest := (whole.current found here).newest stop trailer (by rw [image, page]; exact valid)
  omega

theorem opens_behind_iff (grounded : handle.Grounded) (committed : handle.checkpoint ≠ 0) (rest : Image) :
    Opens (handle.image ++ rest) (fun fresh _ =>
        fresh.checkpoint = handle.checkpoint ∧ fresh.history = handle.history ∧
          fresh.documents = handle.revert.1.documents ∧
          fresh.recovery = Recovery.past (handle.image.size + rest.size) handle.checkpoint) ↔
      ∀ stop trailer, handle.image.size < stop →
        validateCheckpoint (handle.image ++ rest) stop handle.pageSize ≠ .ok trailer := by
  constructor
  · intro opens
    exact refused_of_opens grounded committed (opens.mono fun _ _ held => held.1)
  · intro refused
    have whole := (grounded_behind_iff grounded committed).mpr refused
    refine opens_of_grounded whole fun mode settings location after same faultless =>
      ⟨rfl, rfl, documents_reopened_behind grounded rest mode settings location, ?_⟩
    have size : (handle.image ++ rest).size = handle.image.size + rest.size := Image.size_append _ _
    rw [← size, ← grounded.validEnd_of_committed committed]
    rfl

/-- A new document can be put and committed: the commit is answered with a new identifier. -/
def TakesCommit (handle : Handle) (store : MemoryStore) : Prop :=
  ∀ key value, Change.Fits ⟨key, some value⟩ →
    Session.appends ((⟨handle, store⟩ : Session).step (.put key value .upsert)).2 .commit = true

theorem takesCommit {store : MemoryStore} (grounded : handle.Grounded) (writable : handle.access = .write)
    (healthy : handle.poisoned = false) (empty : handle.staged = KeyMap.empty) (faultless : store.Faultless)
    (small : handle.image.size + 2 * 256 ^ 4 < 256 ^ 8) : TakesCommit handle store := by
  intro key value fits
  have bounds := grounded.pageSize_bounds
  have page := (pageSize_pos bounds.1).2
  rw [Session.step_put writable, empty]
  generalize held : handle.restaged (KeyMap.empty.insert key (.value value)) = taken
  have staged : taken.staged = KeyMap.empty.insert key (.value value) := held ▸ rfl
  have ground : taken.Grounded := held ▸ grounded.of_same rfl rfl rfl rfl rfl
  have image : taken.image = handle.image := held ▸ rfl
  have paged : taken.pageSize = handle.pageSize := held ▸ rfl
  have attempted := attempted_single (held ▸ writable) (held ▸ healthy) staged fits
  have size := size_advance_single ground staged
  have positive : 0 < handle.pageSize := by omega
  have fitted : 17 + key.length + value.length < 256 ^ 4 := fits
  -- the new identifier is the rounded end of the file, past every old one and still a word
  have above := roundUp_lt (handle.image.size + (17 + key.length + value.length) + 40) positive
  have below := le_roundUp (handle.image.size + (17 + key.length + value.length) + 40) positive
  have old := ground.checkpoint_le
  rw [image, paged] at size
  rw [image] at old
  obtain ⟨-, answered, -⟩ := advance_of_attempted ground attempted (by omega)
  obtain ⟨appended, -⟩ := commit_of_attempted attempted faultless
  rw [Session.appends_commit, appended, answered, size]
  simp only [Answer.ofCommit, Answer.isNew, bne_iff_ne]
  omega

theorem empty_of_fresh (grounded : handle.Grounded) (fresh : handle.checkpoint = 0) :
    handle.history = [] ∧ handle.revert.1.documents = [] := by
  obtain ⟨trailers, walk, history⟩ := grounded.walk
  have index := grounded.index
  rw [fresh] at walk index
  constructor
  · rw [history, walk.eq_nil]
    rfl
  · rw [LiveIndex.build, chain_zero] at index
    obtain none_ := Except.ok.inj index
    unfold documents documentsFrom
    show mergeEntries _ _ (KeyMap.startingAt KeyMap.empty []) (handle.index.entries.startingAt []) = []
    rw [← none_]
    simp [KeyMap.startingAt, LiveIndex.empty, mergeEntries]

theorem short_of_opens (grounded : handle.Grounded) {rest : Image}
    (opens : Opens (handle.image ++ rest) fun found _ => found.checkpoint = 0) :
    handle.image.size + rest.size < 2 * handle.pageSize := by
  have bounds := grounded.pageSize_bounds
  have size : (handle.image ++ rest).size = handle.image.size + rest.size := Image.size_append _ _
  obtain ⟨found, -, whole, image, checkpoint⟩ := opens.exists_grounded (by rw [size]; omega)
  have page := pageSize_of_image_append grounded whole image
  have one := whole.fresh (whole.checkpoint_eq_zero_iff.mp checkpoint)
  rw [image, page, size, Nat.div_eq_iff (by omega)] at one
  omega

theorem opens_behind_fresh_iff (grounded : handle.Grounded) (fresh : handle.checkpoint = 0) (rest : Image) :
    Opens (handle.image ++ rest) (fun found after =>
        found.checkpoint = 0 ∧ found.history = [] ∧ found.documents = [] ∧
          (found.access = .write → TakesCommit found after)) ↔
      handle.image.size + rest.size < 2 * handle.pageSize := by
  constructor
  · intro opens
    exact short_of_opens grounded (opens.mono fun _ _ held => held.1)
  · intro short
    have whole := (grounded_behind_fresh_iff grounded fresh).mpr short
    have page := (pageSize_pos grounded.pageSize_bounds.1).2
    have size : (handle.image ++ rest).size = handle.image.size + rest.size := Image.size_append _ _
    obtain ⟨history, documents⟩ := empty_of_fresh grounded fresh
    refine opens_of_grounded whole fun mode settings location after same faultless => ⟨fresh, history, ?_, ?_⟩
    · exact (documents_reopened_behind grounded rest mode settings location).trans documents
    · intro writable
      refine takesCommit (whole.of_same rfl rfl rfl rfl rfl) writable rfl rfl faultless ?_
      show (handle.image ++ rest).size + 2 * 256 ^ 4 < 256 ^ 8
      omega

end Handle

namespace Session

open Handle MemoryStore

variable {session : Session} {pending : PendingCheckpoint}

theorem opens_committed (valid : session.Valid) (attempted : Attempted session.handle pending)
    (addressable : session.handle.image.size + pending.bytes.length < 256 ^ 8) :
    Opens (session.handle.image ++ Image.ofBytes pending.bytes) fun fresh _ =>
      fresh.checkpoint = session.handle.image.size + pending.bytes.length ∧
        fresh.history = (session.handle.image.size + pending.bytes.length) :: session.handle.history ∧
        fresh.documents = session.handle.documents ∧ fresh.recovery = .clean := by
  obtain ⟨count, fit, rfl⟩ := attempted_spec attempted
  have size : (session.handle.advanced session.handle.staged.changes).image.size
      = session.handle.image.size + (session.handle.laidOut session.handle.staged.changes).bytes.length :=
    (Image.size_append _ _).trans (congrArg _ (Image.size_ofBytes _))
  have opens := opens_advanced valid.grounded valid.sound count fit (size ▸ addressable)
  rwa [size] at opens

theorem attempted_value {key value : Bytes} (reached : session.Reached) (addressable : session.handle.image.size < 256 ^ 8)
    (writable : session.handle.access = .write) (healthy : session.handle.poisoned = false)
    (staged : session.handle.staged = KeyMap.empty.insert key (.value value)) (fits : Change.Fits ⟨key, some value⟩) :
    Attempted session.handle (session.handle.laidOut [⟨key, some value⟩]) ∧
      session.handle.image.size + (session.handle.laidOut [⟨key, some value⟩]).bytes.length
        = roundUp (session.handle.image.size + (17 + key.length + value.length) + 40) session.handle.pageSize := by
  have attempted := attempted_single writable healthy staged fits
  rw [staged, Staging.changes_single] at attempted
  refine ⟨attempted, ?_⟩
  rw [(reached.valid addressable).grounded.length_laidOut, checkpointSize_single]

/-- A database with pages of 512 bytes and one checkpoint, in which a second value is staged. -/
theorem second_value {key value : Bytes} (fits : Change.Fits ⟨key, some value⟩) :
    ∃ session pending,
      session = (create { pageSize := 512 } {}).run [.put [0x61] [0x31] .upsert, .commit, .put key value .upsert] ∧
      session.Reached ∧ Attempted session.handle pending ∧ session.handle.image.size = 1024 ∧
      session.handle.checkpoint = 1024 ∧ session.handle.pageSize = 512 ∧
      pending = session.handle.laidOut [⟨key, some value⟩] ∧
      1024 + pending.bytes.length = roundUp (1024 + (17 + key.length + value.length) + 40) 512 := by
  have valid : Settings.validate { pageSize := 512 } = .ok () := rfl
  have first : Change.Fits ⟨[0x61], some [0x31]⟩ := by decide
  have room : roundUp (512 + (17 + [(0x61 : UInt8)].length + [(0x31 : UInt8)].length) + 40) 512 = 1024 := by decide
  have held := run_put_commit_put valid first (room ▸ by decide) key value
  have reached := reached_create valid [.put [0x61] [0x31] .upsert, .commit, .put key value .upsert]
  obtain ⟨size, checkpoint⟩ := size_advanced_new valid [0x61] [0x31]
  rw [room] at size checkpoint
  generalize before : (new { pageSize := 512 }).advanced [⟨[0x61], some [0x31]⟩] = handle at *
  generalize named : (create { pageSize := 512 } {}).run [.put [0x61] [0x31] .upsert, .commit, .put key value .upsert]
    = session at *
  have image : session.handle.image.size = 1024 := by
    rw [held]
    exact size
  have current : session.handle.checkpoint = 1024 := by
    rw [held]
    exact checkpoint
  have page : session.handle.pageSize = 512 := by
    rw [held, ← before]
    rfl
  have staged : session.handle.staged = KeyMap.empty.insert key (.value value) := by
    rw [held]
    rfl
  obtain ⟨attempted, total⟩ :=
    attempted_value reached (by omega) (by rw [held, ← before]; rfl) (by rw [held, ← before]; rfl) staged fits
  rw [image, page] at total
  exact ⟨session, _, rfl, reached, attempted, image, current, page, rfl, total⟩

/-- A database with pages of 512 bytes that was never committed, in which a value is staged, with
any plan for the calls after its creation. -/
theorem first_value_planned (plan : Plan) (read : (nextOutcome plan.reads).1 = .succeed)
    (append : (nextOutcome plan.appends).1 = .succeed) (sync : (nextOutcome plan.syncs).1 = .succeed)
    {key value : Bytes} (fits : Change.Fits ⟨key, some value⟩) :
    ∃ session pending,
      session = (create { pageSize := 512 } plan).run [.put key value .upsert] ∧
      session.Reached ∧ Attempted session.handle pending ∧ session.handle.image.size = 512 ∧
      session.handle.checkpoint = 0 ∧ session.handle.pageSize = 512 ∧
      pending = session.handle.laidOut [⟨key, some value⟩] ∧
      512 + pending.bytes.length = roundUp (512 + (17 + key.length + value.length) + 40) 512 ∧
      session.store.plan =
        { plan with
          reads := (nextOutcome plan.reads).2
          appends := (nextOutcome plan.appends).2
          syncs := (nextOutcome plan.syncs).2 } := by
  have valid : Settings.validate { pageSize := 512 } = .ok () := rfl
  have ran : (create { pageSize := 512 } plan).run [.put key value .upsert]
      = ⟨(new { pageSize := 512 }).restaged (KeyMap.empty.insert key (.value value)),
        (create { pageSize := 512 } plan).store⟩ := by
    rw [run, create, step_put rfl, run]
    rfl
  have reached : ((create { pageSize := 512 } plan).run [.put key value .upsert]).Reached :=
    ⟨_, _, opened_create valid read append sync, rfl⟩
  have left := plan_create valid read append sync
  generalize named : (create { pageSize := 512 } plan).run [.put key value .upsert] = session at *
  have image : session.handle.image.size = 512 := by
    rw [ran]
    exact size_newImage _
  have page : session.handle.pageSize = 512 := by
    rw [ran]
    rfl
  have staged : session.handle.staged = KeyMap.empty.insert key (.value value) := by
    rw [ran]
    rfl
  obtain ⟨attempted, total⟩ := attempted_value reached (by omega) (by rw [ran]; rfl) (by rw [ran]; rfl) staged fits
  rw [image, page] at total
  exact ⟨session, _, rfl, reached, attempted, image, by rw [ran]; rfl, page, rfl, total, by rw [ran]; exact left⟩

theorem first_value {key value : Bytes} (fits : Change.Fits ⟨key, some value⟩) :
    ∃ session pending,
      session = (create { pageSize := 512 } {}).run [.put key value .upsert] ∧
      session.Reached ∧ Attempted session.handle pending ∧ session.handle.image.size = 512 ∧
      session.handle.checkpoint = 0 ∧ session.handle.pageSize = 512 ∧
      pending = session.handle.laidOut [⟨key, some value⟩] ∧
      512 + pending.bytes.length = roundUp (512 + (17 + key.length + value.length) + 40) 512 := by
  obtain ⟨session, pending, named, reached, attempted, image, checkpoint, page, same, total, -⟩ :=
    first_value_planned {} rfl rfl rfl fits
  exact ⟨session, pending, named, reached, attempted, image, checkpoint, page, same, total⟩

/-- What a commit that was interrupted behind a checkpoint leaves opens as that checkpoint exactly
when no boundary past the image closes a valid checkpoint, and what a whole commit leaves opens
with its changes. -/
theorem interrupted_commit_iff (reached : session.Reached) (attempted : Attempted session.handle pending)
    (committed : session.handle.checkpoint ≠ 0)
    (addressable : session.handle.image.size + pending.bytes.length < 256 ^ 8) :
    (∀ part rest, pending.bytes = part ++ rest → rest ≠ [] →
      (Opens (session.handle.image ++ Image.ofBytes part) (fun fresh _ =>
          fresh.checkpoint = session.handle.checkpoint ∧ fresh.history = session.handle.history ∧
            fresh.documents = session.handle.revert.1.documents ∧
            fresh.recovery
              = Recovery.past (session.handle.image.size + part.length) session.handle.checkpoint) ↔
        ∀ stop trailer, session.handle.image.size < stop →
          validateCheckpoint (session.handle.image ++ Image.ofBytes part) stop session.handle.pageSize ≠ .ok trailer)) ∧
      Opens (session.handle.image ++ Image.ofBytes pending.bytes) fun fresh _ =>
        fresh.checkpoint = session.handle.image.size + pending.bytes.length ∧
          fresh.history = (session.handle.image.size + pending.bytes.length) :: session.handle.history ∧
          fresh.documents = session.handle.documents ∧ fresh.recovery = .clean := by
  have valid := reached.valid (by omega)
  constructor
  · intro part rest split cut
    have found := opens_behind_iff valid.grounded committed (Image.ofBytes part)
    rwa [Image.size_ofBytes] at found
  · exact opens_committed valid attempted addressable

theorem interrupted_commit_after_five_bytes :
    ∃ session pending,
      session = (create { pageSize := 512 } {}).run [.put [0x61] [0x31] .upsert, .commit, .put [0x6B] [0x32] .upsert] ∧
      Attempted session.handle pending ∧
      Opens (session.handle.image ++ Image.ofBytes (pending.bytes.take 5)) fun fresh _ =>
        fresh.checkpoint = 1024 ∧ fresh.recovery = .damaged 5 := by
  have fits : Change.Fits ⟨[0x6B], some [0x32]⟩ := by decide
  obtain ⟨session, pending, named, reached, attempted, image, checkpoint, page, -, total⟩ := second_value fits
  have room : roundUp (1024 + (17 + [(0x6B : UInt8)].length + [(0x32 : UInt8)].length) + 40) 512 = 1536 := by decide
  rw [room] at total
  have five : (pending.bytes.take 5).length = 5 := by
    rw [List.length_take]
    omega
  obtain ⟨cuts, -⟩ := interrupted_commit_iff reached attempted (by omega) (by omega)
  have cut := cuts (pending.bytes.take 5) (pending.bytes.drop 5) (List.take_append_drop 5 _).symm
    (List.ne_nil_of_length_pos (by rw [List.length_drop]; omega))
  have opens := cut.mpr fun stop trailer later valid => by
    obtain ⟨-, -, inside, aligned⟩ := stop_of_valid valid
    rw [Image.size_append, Image.size_ofBytes, five] at inside
    rw [page] at aligned
    omega
  refine ⟨session, pending, named, attempted, opens.mono fun fresh _ held => ⟨held.1.trans checkpoint, ?_⟩⟩
  rw [held.2.2.2, image, five, checkpoint]
  rfl

/-- The bytes of the document are a trailer at the next boundary, so the blocks alone are enough to
be taken for a checkpoint, and the one before them is not found. -/
theorem forged_trailer_hides_checkpoint :
    ∃ session pending,
      session = (create { pageSize := 512 } {}).run
        [.put [0x61] [0x31] .upsert, .commit,
          .put [0x6B] (Bytes.zeros 458 ++ (⟨0, 1536, 512, 0⟩ : Trailer).encode) .upsert] ∧
      session.Reached ∧ Attempted session.handle pending ∧ session.handle.checkpoint = 1024 ∧ pending.tail ≠ [] ∧
      ¬ Opens (session.handle.image ++ Image.ofBytes pending.blocks) fun fresh _ => fresh.checkpoint = 1024 := by
  generalize spelled : (⟨0, 1536, 512, 0⟩ : Trailer) = forged
  have long : (Bytes.zeros 458 ++ forged.encode).length = 498 := by simp [Trailer.size]
  have fits : Change.Fits ⟨[0x6B], some (Bytes.zeros 458 ++ forged.encode)⟩ := by
    show 17 + 1 + (Bytes.zeros 458 ++ forged.encode).length < Change.lengthLimit
    rw [long]
    decide
  obtain ⟨session, pending, named, reached, attempted, image, checkpoint, page, same, -⟩ := second_value fits
  have grounded := (reached.valid (by omega)).grounded
  refine ⟨session, pending, named, reached, attempted, checkpoint, ?_, fun opens => ?_⟩
  · rw [same]
    refine List.ne_nil_of_length_pos ?_
    show 0 < (Bytes.zeros _ ++ Trailer.encode _).length
    simp [Trailer.size]
  · have blocks : pending.blocks = (⟨[0x6B], some (Bytes.zeros 458 ++ forged.encode)⟩ : Change).encode := by
      rw [same]
      exact List.append_nil _
    -- the block header, the key and the zeros before it bring the spelled trailer to the boundary
    have valid : validateCheckpoint (session.handle.image ++ Image.ofBytes pending.blocks) 1536 512 = .ok forged := by
      refine validateCheckpoint_ok_iff.mpr ⟨Trailer.readEndingAt_ok_iff.mpr ⟨?_, ?_, ?_, ?_, ?_, ?_⟩, [], ?_⟩
      · decide
      · rw [Image.size_append, Image.size_ofBytes, blocks, Change.length_encode, image]
        show 1536 ≤ 1024 + (17 + 1 + (Bytes.zeros 458 ++ forged.encode).length)
        omega
      · decide
      · have found := Block.slice_value_behind session.handle.image [0x6B] (Bytes.zeros 458) []
          (List.append_nil (Bytes.zeros 458 ++ forged.encode)).symm
        rw [image, Trailer.length_encode, Bytes.length_zeros, ← blocks] at found
        exact found
      · subst spelled
        exact ⟨by decide, by decide, by decide, by decide⟩
      · subst spelled
        exact ⟨rfl, by decide, by decide, rfl⟩
      · subst spelled
        rfl
    rw [← checkpoint] at opens
    refine refused_of_opens grounded (by omega) opens 1536 forged (by omega) ?_
    rw [page]
    exact valid

/-- What a first commit that was interrupted leaves opens as the empty database, ready for a
commit, exactly when it is short of the second page boundary, and what a whole first commit leaves
opens with its changes. -/
theorem interrupted_first_commit_iff (reached : session.Reached) (attempted : Attempted session.handle pending)
    (fresh : session.handle.checkpoint = 0)
    (addressable : session.handle.image.size + pending.bytes.length < 256 ^ 8) :
    (∀ part rest, pending.bytes = part ++ rest → rest ≠ [] →
      (Opens (session.handle.image ++ Image.ofBytes part) (fun found after =>
          found.checkpoint = 0 ∧ found.history = [] ∧ found.documents = [] ∧
            (found.access = .write → TakesCommit found after)) ↔
        session.handle.image.size + part.length < 2 * session.handle.pageSize)) ∧
      Opens (session.handle.image ++ Image.ofBytes pending.bytes) fun found _ =>
        found.checkpoint = session.handle.image.size + pending.bytes.length ∧
          found.history = (session.handle.image.size + pending.bytes.length) :: session.handle.history ∧
          found.documents = session.handle.documents ∧ found.recovery = .clean := by
  have valid := reached.valid (by omega)
  constructor
  · intro part rest split cut
    have found := opens_behind_fresh_iff valid.grounded fresh (Image.ofBytes part)
    rwa [Image.size_ofBytes] at found
  · exact opens_committed valid attempted addressable

theorem interrupted_first_commit_after_five_bytes :
    ∃ session pending,
      session = (create { pageSize := 512 } {}).run [.put [0x61] [0x31] .upsert] ∧ Attempted session.handle pending ∧
      Opens (session.handle.image ++ Image.ofBytes (pending.bytes.take 5)) fun found after =>
        found.checkpoint = 0 ∧ found.documents = [] ∧ (found.access = .write → TakesCommit found after) := by
  have fits : Change.Fits ⟨[0x61], some [0x31]⟩ := by decide
  obtain ⟨session, pending, named, reached, attempted, image, checkpoint, page, -, total⟩ := first_value fits
  have room : roundUp (512 + (17 + [(0x61 : UInt8)].length + [(0x31 : UInt8)].length) + 40) 512 = 1024 := by decide
  rw [room] at total
  obtain ⟨cuts, -⟩ := interrupted_first_commit_iff reached attempted checkpoint (by omega)
  have cut := cuts (pending.bytes.take 5) (pending.bytes.drop 5) (List.take_append_drop 5 _).symm
    (List.ne_nil_of_length_pos (by rw [List.length_drop]; omega))
  have opens := cut.mpr (by rw [List.length_take, image, page]; omega)
  exact ⟨session, pending, named, attempted, opens.mono fun found _ held => ⟨held.1, held.2.2⟩⟩

/-- A first commit whose blocks reach the second page boundary: without its trailer nothing opens. -/
theorem long_first_commit_is_fatal :
    ∃ session pending,
      session = (create { pageSize := 512 } {}).run [.put [0x6B] (List.replicate 600 0x78) .upsert] ∧
      session.Reached ∧ Attempted session.handle pending ∧ session.handle.checkpoint = 0 ∧ pending.tail ≠ [] ∧
      (load device .write { pageSize := 512 } { image := session.handle.image ++ Image.ofBytes pending.blocks }).1.result
        = .error (.storage (.noValidCheckpoint 1130)) := by
  generalize spelled : List.replicate 600 (0x78 : UInt8) = value
  have split : value = List.replicate 458 0x78 ++ List.replicate 40 0x78 ++ List.replicate 102 0x78 := by
    rw [← spelled]
    simp only [List.replicate_append_replicate]
  have long : value.length = 600 := by rw [← spelled, List.length_replicate]
  have fits : Change.Fits ⟨[0x6B], some value⟩ := by
    show 17 + 1 + value.length < Change.lengthLimit
    rw [long]
    decide
  obtain ⟨session, pending, named, reached, attempted, image, checkpoint, page, same, -⟩ := first_value fits
  have grounded := (reached.valid (by omega)).grounded
  have blocks : pending.blocks = Change.encode ⟨[0x6B], some value⟩ := by
    rw [same]
    exact List.append_nil _
  have size : (session.handle.image ++ Image.ofBytes pending.blocks).size = 1130 := by
    rw [Image.size_append, Image.size_ofBytes, blocks, Change.length_encode, image]
    show 512 + (17 + 1 + value.length) = 1130
    rw [long]
  have filler := Block.slice_value_behind session.handle.image [0x6B] _ _ split
  rw [image, List.length_replicate, List.length_replicate, ← blocks] at filler
  refine ⟨session, pending, named, reached, attempted, checkpoint, ?_, ?_⟩
  · rw [same]
    refine List.ne_nil_of_length_pos ?_
    show 0 < (Bytes.zeros _ ++ Trailer.encode _).length
    simp [Trailer.size]
  · refine load_of_layout_error .write rfl (by rw [size]; decide) rfl ?_
    have header := (grounded.parts_behind (Image.ofBytes pending.blocks)).1
    have paged : session.handle.header.pageSize = 512 := page
    have refused := Layout.load_of_refused header (by rw [size, paged]; decide) fun stop trailer valid => by
      obtain ⟨-, above, inside, aligned⟩ := stop_of_valid valid
      rw [paged] at above aligned
      rw [size] at inside
      obtain rfl : stop = 1024 := by omega
      obtain ⟨-, -, -, slice, -⟩ := Trailer.readEndingAt_ok_iff.mp (validateCheckpoint_ok_iff.mp valid).1
      -- the forty bytes before the boundary are all of the value, and none begins a trailer
      have marks := congrArg List.head? (filler.symm.trans slice)
      rw [List.head?_replicate, Trailer.encode, Trailer.fields, Trailer.magic] at marks
      simp at marks
    rw [size] at refused
    exact refused

end Session
end CheckpointStore
