import CheckpointStore.Proofs.FileDevices
import CheckpointStore.Proofs.Exports

/-!
# Sessions on files

A database that is opened by its path stages changes, commits them and exports copies. As long as no copy
is written over the database itself, every checkpoint that a commit reports is found when the path is
opened again: the path either leads to the file that holds what the handle does, or to nothing at all,
and then no commit succeeds.
-/

namespace CheckpointStore

structure FileSession where
  database : OpenDatabase FileSystem.Execution
  files : FileSystem

inductive FileOperation where
  | operate (operation : Operation)
  | exportTo (target : String)

def Answer.ofExport : Except DatabaseError Unit → Answer
  | .ok () => .done
  | .error error => .failed error

theorem Answer.isNew_ofExport (current : Nat) (result : Except DatabaseError Unit) :
    (ofExport result).isNew current = false := by
  cases result <;> rfl

/-- Every opening of the path succeeds, in any mode and with any settings that are accepted, and what it
gives has a property. -/
def FileSystem.OpensAt (files : FileSystem) (path : String) (holds : Handle → Prop) : Prop :=
  ∀ mode settings, settings.validate = .ok () → ∃ database events after,
    (Handle.openPath (FileSystem.host none) path mode settings).run files = (.ok ⟨.ok database, events⟩, after) ∧
      holds database.handle

namespace FileSession

open Handle FileSystem

def handle (session : FileSession) : Handle := session.database.handle

def withHandle (session : FileSession) (handle : Handle) : FileSession :=
  { session with database := { session.database with handle } }

def step (session : FileSession) : FileOperation → Except CrashPoint Answer × FileSession
  | .operate .commit =>
    match (commit session.database.device session.handle).run session.files with
    | (.ok committed, files) => (.ok (.ofCommit committed.result), { session.withHandle committed.handle with files })
    | (.error point, files) => (.error point, { session with files })
  | .operate operation =>
    let staged := (⟨session.handle, {}⟩ : Session).step operation
    (.ok staged.1, session.withHandle staged.2.handle)
  | .exportTo target =>
    match (Handle.exportTo (FileSystem.host none) session.handle target).run session.files with
    | (.ok reported, files) => (.ok (.ofExport reported.result), { session with files })
    | (.error point, files) => (.error point, { session with files })

def run (session : FileSession) : List FileOperation → FileSession
  | [] => session
  | operation :: rest => run (session.step operation).2 rest

def inMemory (session : FileSession) : Session := ⟨session.handle, { image := session.handle.image }⟩

/-- The name stands for nothing, or for the file that was opened with the image of the handle. -/
def Held (session : FileSession) (names : List String) (identity : Nat) : Prop :=
  session.files.entry? names = none ∨
    session.files.entry? names = some (.file identity) ∧ session.files.content identity = session.handle.image

/-- The path leads to the file that was opened, which holds the image of the handle, or to nothing. -/
structure Linked (session : FileSession) (path : String) (names : List String) (identity : Nat) : Prop where
  calm : session.files.plan = []
  tidy : session.files.Tidy
  device : session.database.device = FileSystem.device none ⟨path, .file identity, true⟩
  resolved : session.files.resolve path = .ok (.named names false)
  short : (names.getLast?.getD "").utf8ByteSize ≤ maxName
  held : session.Held names identity
  sound : session.handle.Sound

variable {session after : FileSession} {path : String} {names : List String} {identity : Nat}

/-- What an operation comes to is what it can come to in memory, and what a checkpoint that it appends
is found in is the file that was opened. -/
structure Followed (session : FileSession) (names : List String) (identity : Nat) (answer : Answer) (after : FileSession) : Prop where
  moved : ∃ store, Session.Moved session.inMemory answer ⟨after.handle, store⟩
  device : after.database.device = session.database.device
  evolves : session.files.Evolves after.files
  held : after.Held names identity
  new : answer.isNew session.handle.checkpoint = true →
    after.files.entry? names = some (.file identity) ∧ after.files.content identity = after.handle.image

theorem step_commit {committed : Committed} {files : FileSystem}
    (ran : (commit session.database.device session.handle).run session.files = (.ok committed, files)) :
    session.step (.operate .commit)
      = (.ok (.ofCommit committed.result), { session.withHandle committed.handle with files }) := by
  unfold step
  rw [ran]

theorem commit_followed_of_idle (linked : session.Linked path names identity)
    (idle : ∀ pending, ¬ Attempted session.handle pending) :
    ∃ answer after, session.step (.operate .commit) = (.ok answer, after) ∧ session.Followed names identity answer after := by
  obtain ⟨committed, settled⟩ := commit_of_unattempted session.handle idle
  have outcome := commit_outcome session.handle session.inMemory.store
  rw [settled MemoryStore.device] at outcome
  have ran : (commit session.database.device session.handle).run session.files = (.ok committed, session.files) := by
    rw [settled]
    rfl
  have old : (Answer.ofCommit committed.result).isNew session.handle.checkpoint = false ∧
      committed.handle.image = session.handle.image := by
    cases outcome with
    | refused events cause => exact ⟨rfl, rfl⟩
    | skipped events writable healthy nothing => exact ⟨by simp [Answer.ofCommit, Answer.isNew], rfl⟩
    | appended attempted image => exact absurd attempted (idle _)
    | cut events attempted split image => exact absurd attempted (idle _)
    | stuck events attempted split image => exact absurd attempted (idle _)
  refine ⟨_, _, step_commit ran, ⟨_, .committed outcome⟩, rfl, .refl linked.tidy, ?_, fun new => ?_⟩
  · exact linked.held.imp_right fun held => ⟨held.1, held.2.trans old.2.symm⟩
  · rw [old.1] at new
    contradiction

/-- Where the path leads to nothing, the append fails and the name stays free. -/
theorem commit_followed_of_absent (linked : session.Linked path names identity) (absent : session.files.entry? names = none)
    {pending : PendingCheckpoint} (attempted : Attempted session.handle pending) :
    ∃ answer after, session.step (.operate .commit) = (.ok answer, after) ∧ session.Followed names identity answer after := by
  obtain ⟨error, cut, files, ran, evolves, gone⟩ :=
    commit_file_of_absent ⟨path, .file identity, true⟩ linked.tidy linked.resolved absent attempted
  rw [← linked.device] at ran
  have outcome : CommitOutcome session.handle session.inMemory.store _ session.inMemory.store :=
    retreat_outcome attempted session.handle.staged.changes.length error cut rfl
  refine ⟨_, _, step_commit ran, ⟨_, .committed outcome⟩, rfl, evolves, .inl gone, fun new => ?_⟩
  cases cut <;> contradiction

theorem commit_followed (linked : session.Linked path names identity) :
    ∃ answer after, session.step (.operate .commit) = (.ok answer, after) ∧ session.Followed names identity answer after := by
  by_cases idle : ∀ pending, ¬ Attempted session.handle pending
  · exact commit_followed_of_idle linked idle
  push Not at idle
  obtain ⟨pending, attempted⟩ := idle
  rcases linked.held with absent | ⟨file, content⟩
  · exact commit_followed_of_absent linked absent attempted
  · have stands : session.files.Stands path names identity := ⟨linked.resolved, linked.short, file⟩
    have faultless : session.inMemory.store.Faultless := rfl
    obtain ⟨written, ran, image⟩ := commit_file ⟨path, .file identity, true⟩ linked.tidy stands attempted
    obtain ⟨appended, -, -⟩ := commit_of_attempted attempted faultless
    have outcome := commit_outcome session.handle session.inMemory.store
    rw [appended] at outcome
    rw [← linked.device] at ran
    have whole : (session.files.store identity written).content identity
        = (session.handle.advance pending).handle.image := by
      rw [content_store, image, image_advance, content]
    exact ⟨_, _, step_commit ran, ⟨_, .committed outcome⟩, rfl, evolves_store linked.tidy identity written,
      .inr ⟨file, whole⟩, fun _ => ⟨file, whole⟩⟩

theorem operate_followed (linked : session.Linked path names identity) (operation : Operation) :
    ∃ answer after, session.step (.operate operation) = (.ok answer, after) ∧
      session.Followed names identity answer after := by
  cases plain : operation.isCommit with
  | false =>
    have sound : (⟨session.handle, {}⟩ : Session).handle.Sound := linked.sound
    obtain ⟨staged, stepped, kept, old⟩ := Session.step_restaged sound plain
    have unfolded : session.step (.operate operation)
        = (.ok ((⟨session.handle, {}⟩ : Session).step operation).1,
          session.withHandle ((⟨session.handle, {}⟩ : Session).step operation).2.handle) := by
      cases operation with
      | commit => contradiction
      | _ => rfl
    rw [stepped] at unfolded
    refine ⟨_, _, unfolded, ⟨_, .restaged staged kept old⟩, rfl, .refl linked.tidy, linked.held, fun new => ?_⟩
    exact absurd new (Bool.eq_false_iff.mp old)
  | true =>
    cases operation with
    | commit => exact commit_followed linked
    | _ => contradiction

/-- An export fails and does nothing when the handle cannot be compacted, and else replaces its target. -/
theorem step_exportTo (tidy : session.files.Tidy) (calm : session.files.plan = []) (target : String) :
    (∃ error, session.handle.compacted = .error error ∧
        session.step (.exportTo target) = (.ok (.failed (.storage error)), session)) ∨
      ∃ bytes result files, session.handle.compacted = .ok bytes ∧ Replaced session.files target bytes result files ∧
        session.step (.exportTo target) =
          (.ok (.ofExport (result.mapError fun cause => .storage (.io (.replace target) cause))), { session with files }) := by
  cases made : session.handle.compacted with
  | error error =>
    refine .inl ⟨error, rfl, ?_⟩
    unfold step Handle.exportTo
    rw [made]
    rfl
  | ok bytes =>
    refine .inr ⟨bytes, _, _, rfl, replaced tidy calm target bytes, ?_⟩
    have replacing : ((FileSystem.host none).replaceFile target bytes).run session.files
        = (.ok (reportAs (.replace target) (replace target bytes session.files).1), (replace target bytes session.files).2) :=
      rfl
    unfold step Handle.exportTo
    rw [made]
    dsimp only
    rw [execution_bind, show ((FileSystem.host none).reach .exportBeforeWrite).run session.files = (.ok (), session.files)
      from rfl]
    dsimp only
    rw [execution_bind, replacing]
    cases (replace target bytes session.files).1 <;> rfl

theorem exportTo_keeps (tidy : session.files.Tidy) (calm : session.files.plan = []) {target : String}
    (apart : session.files.resolve target ≠ .ok (.named names false))
    (sibling : ∀ slash, session.files.resolve (Path.temporary target) ≠ .ok (.named names slash)) :
    ∃ files, (session.step (.exportTo target)).2 = { session with files } ∧ session.files.Evolves files ∧
      Keeps names session.files files := by
  rcases step_exportTo tidy calm target with ⟨error, -, stepped⟩ | ⟨bytes, result, files, -, replaced, stepped⟩
  · exact ⟨session.files, congrArg Prod.snd stepped, .refl tidy, .refl _ _⟩
  · exact ⟨files, congrArg Prod.snd stepped, replaced.evolves tidy, replaced.keeps tidy apart sibling⟩

/-- An export leaves the handle as it is. Where its target is another file, the database keeps its own,
unless that was the sibling that is written first: then its name is gone. -/
theorem exportTo_followed (linked : session.Linked path names identity) {target : String}
    (apart : session.files.resolve target ≠ session.files.resolve path) :
    ∃ answer after, session.step (.exportTo target) = (.ok answer, after) ∧
      session.Followed names identity answer after := by
  have tidy := linked.tidy
  have still {answer : Answer} (old : answer.isNew session.handle.checkpoint = false) :
      Session.Moved session.inMemory answer ⟨session.handle, session.inMemory.store⟩ :=
    .restaged session.handle.staged linked.sound old
  rcases step_exportTo tidy linked.calm target with ⟨error, -, ran⟩ | ⟨bytes, result, files, -, replaced, ran⟩
  · exact ⟨_, _, ran, ⟨_, still rfl⟩, rfl, .refl tidy, linked.held, nofun⟩
  · have old := Answer.isNew_ofExport session.handle.checkpoint
      (result.mapError fun cause => .storage (.io (.replace target) cause))
    rw [linked.resolved] at apart
    refine ⟨_, _, ran, ⟨_, still old⟩, rfl, replaced.evolves tidy, ?_, fun new => absurd new (Bool.eq_false_iff.mp old)⟩
    -- the sibling that is written first can be the database itself, as `p.tmp` is for a copy to `p`
    by_cases sibling : ∃ slash, session.files.resolve (Path.temporary target) = .ok (.named names slash)
    · have plain : session.files.entry? names ≠ some .directory := by
        rcases linked.held with absent | ⟨file, -⟩
        · rw [absent]
          exact nofun
        · rw [file]
          exact nofun
      exact .inl (replaced.gone tidy apart ⟨sibling, linked.short, plain⟩)
    · push Not at sibling
      have kept := replaced.keeps tidy apart sibling
      rcases linked.held with absent | ⟨file, content⟩
      · exact .inl (kept.entry.trans absent)
      · refine .inr ⟨kept.entry.trans file, ?_⟩
        show files.content identity = session.handle.image
        rw [FileSystem.content, kept.stored identity file]
        exact content

/-- No export among the operations has a target that leads where the path does. -/
def Elsewhere (files : FileSystem) (path : String) (operations : List FileOperation) : Prop :=
  ∀ target, .exportTo target ∈ operations → files.resolve target ≠ files.resolve path

theorem Linked.followed (linked : session.Linked path names identity) {operation : FileOperation}
    (apart : Elsewhere session.files path [operation]) :
    ∃ answer after, session.step operation = (.ok answer, after) ∧ session.Followed names identity answer after := by
  cases operation with
  | operate operation => exact operate_followed linked operation
  | exportTo target => exact exportTo_followed linked (apart target (List.mem_singleton.mpr rfl))

variable {answer : Answer}

theorem Followed.image (followed : session.Followed names identity answer after) :
    session.handle.image.bytes <+: after.handle.image.bytes := by
  obtain ⟨store, moved⟩ := followed.moved
  exact Session.image_of_moved moved

theorem Linked.of_followed (linked : session.Linked path names identity)
    (followed : session.Followed names identity answer after) : after.Linked path names identity := by
  obtain ⟨⟨store, moved⟩, device, evolves, held, -⟩ := followed
  have sound : session.inMemory.handle.Sound := linked.sound
  exact ⟨evolves.plan.trans linked.calm, evolves.tidy, device.trans linked.device, evolves.resolve.mpr linked.resolved,
    linked.short, held, Session.sound_of_moved sound moved⟩

theorem Followed.grounded (followed : session.Followed names identity answer after) (grounded : session.handle.Grounded)
    (sound : session.handle.Sound) (addressable : after.handle.image.size < 256 ^ 8) : after.handle.Grounded := by
  obtain ⟨store, moved⟩ := followed.moved
  have valid : session.inMemory.Valid := ⟨grounded, sound, fun _ => rfl⟩
  exact (valid.of_moved moved addressable).grounded

theorem Elsewhere.cons {files : FileSystem} {operation : FileOperation} {rest : List FileOperation}
    (apart : Elsewhere files path (operation :: rest)) : Elsewhere files path [operation] ∧ Elsewhere files path rest := by
  refine ⟨fun target mem => apart target ?_, fun target mem => apart target (List.mem_cons_of_mem _ mem)⟩
  rw [List.mem_singleton.mp mem]
  exact List.mem_cons_self

theorem Elsewhere.of_followed {operations : List FileOperation} (apart : Elsewhere session.files path operations)
    (linked : session.Linked path names identity) (followed : session.Followed names identity answer after) :
    Elsewhere after.files path operations := by
  intro target mem same
  refine apart target mem ?_
  rw [followed.evolves.resolve.mpr linked.resolved] at same
  rw [linked.resolved, followed.evolves.resolve.mp same]

theorem Linked.run (linked : session.Linked path names identity) {operations : List FileOperation}
    (apart : Elsewhere session.files path operations) :
    (session.run operations).Linked path names identity ∧
      session.handle.image.bytes <+: (session.run operations).handle.image.bytes := by
  induction operations generalizing session with
  | nil => exact ⟨linked, List.prefix_rfl⟩
  | cons operation rest ih =>
    obtain ⟨answer, after, stepped, followed⟩ := linked.followed apart.cons.1
    obtain ⟨later, grown⟩ := ih (linked.of_followed followed) (apart.cons.2.of_followed linked followed)
    rw [FileSession.run, stepped]
    exact ⟨later, followed.image.trans grown⟩

theorem Linked.grounded_run (linked : session.Linked path names identity) (grounded : session.handle.Grounded)
    {operations : List FileOperation} (apart : Elsewhere session.files path operations)
    (addressable : (session.run operations).handle.image.size < 256 ^ 8) : (session.run operations).handle.Grounded := by
  induction operations generalizing session with
  | nil => exact grounded
  | cons operation rest ih =>
    obtain ⟨answer, after, stepped, followed⟩ := linked.followed apart.cons.1
    have behind := linked.of_followed followed
    have further := apart.cons.2.of_followed linked followed
    rw [FileSession.run, stepped] at addressable ⊢
    -- images only grow, so no image of the run is longer than the last
    have between := Nat.lt_of_le_of_lt (Session.size_mono (behind.run further).2) addressable
    exact ih behind (followed.grounded grounded linked.sound between) further addressable

theorem opensAt_of_grounded {files : FileSystem} {handle : Handle} (tidy : files.Tidy)
    (stands : files.Stands path names identity) (grounded : handle.Grounded) (image : files.content identity = handle.image)
    {holds : Handle → Prop} (found : ∀ mode settings, holds (handle.reopened mode settings path)) :
    files.OpensAt path holds := by
  intro mode settings valid
  obtain ⟨events, opened⟩ := openPath_of_grounded tidy stands grounded image mode valid
  exact ⟨_, events, files, opened, found mode settings⟩

/-- An export that reports success leaves a copy at its target. -/
theorem exported_copy_opens (tidy : session.files.Tidy) (calm : session.files.plan = []) (titled : session.handle.Titled)
    {target : String} (exported : session.step (.exportTo target) = (.ok .done, after)) :
    after.files.OpensAt target fun copy => copy.CopyOf session.handle := by
  rcases step_exportTo tidy calm target with ⟨error, -, stepped⟩ | ⟨bytes, result, files, made, replaced, stepped⟩
  · rw [stepped] at exported
    cases exported
  · rw [stepped] at exported
    obtain ⟨answered, rfl⟩ := Prod.mk.inj exported
    obtain rfl : result = .ok () := by
      cases result with
      | ok done => rfl
      | error cause => cases answered
    obtain ⟨names, identity, stands, content⟩ := replaced.stands tidy
    obtain ⟨copy, grounded, image, copies⟩ := titled.copied made
    have held : files.content identity = copy.image := by
      rw [image, ← content, Image.ofBytes_bytes]
    exact opensAt_of_grounded (replaced.evolves tidy).tidy stands grounded held fun mode settings => copies mode settings target

theorem Linked.opens_appended (linked : session.Linked path names identity) (grounded : session.handle.Grounded)
    {checkpoint : Nat} (committed : session.step (.operate .commit) = (.ok (.committed checkpoint), after))
    (appended : checkpoint ≠ session.handle.checkpoint) (addressable : after.handle.image.size < 256 ^ 8) :
    after.files.OpensAt path fun fresh =>
      fresh.recovery = .clean ∧ fresh.checkpoint = checkpoint ∧ fresh.history = after.handle.history ∧
        fresh.documents = after.handle.documents := by
  obtain ⟨answer, final, stepped, followed⟩ := commit_followed linked
  rw [committed] at stepped
  obtain ⟨answered, rfl⟩ := Prod.mk.inj stepped
  obtain rfl := Except.ok.inj answered
  have new : (Answer.committed checkpoint).isNew session.inMemory.handle.checkpoint = true := bne_iff_ne.mpr appended
  have ground : session.inMemory.handle.Grounded := grounded
  obtain ⟨file, content⟩ := followed.new new
  obtain ⟨store, moved⟩ := followed.moved
  obtain ⟨current, bare, -⟩ := Session.advanced_of_isNew ground moved new addressable
  obtain rfl := Answer.committed.inj current
  have clean := Session.tail_of_moved ground moved addressable
  rw [if_pos new] at clean
  have stands : after.files.Stands path names identity := ⟨followed.evolves.resolve.mpr linked.resolved, linked.short, file⟩
  refine opensAt_of_grounded followed.evolves.tidy stands (followed.grounded grounded linked.sound addressable) content ?_
  refine fun mode settings => ⟨clean, rfl, rfl, ?_⟩
  unfold documents documentsFrom
  rw [show after.handle.staged = KeyMap.empty from bare]
  rfl

theorem step_commit_of_stands (session : FileSession) {pending : PendingCheckpoint} {entry : Entry}
    (device : session.database.device = FileSystem.device none ⟨path, entry, true⟩) (tidy : session.files.Tidy)
    (stands : session.files.Stands path names identity) (grounded : session.handle.Grounded)
    (attempted : Attempted session.handle pending) (addressable : (session.handle.advance pending).handle.image.size < 256 ^ 8) :
    ∃ content, content.image = session.files.content identity ++ Image.ofBytes pending.bytes ∧
      session.step (.operate .commit) = (.ok (.committed (session.handle.advance pending).handle.image.size),
        { session.withHandle (session.handle.advanced session.handle.staged.changes) with
          files := session.files.store identity content }) := by
  obtain ⟨content, ran, image⟩ := commit_file ⟨path, entry, true⟩ tidy stands attempted
  obtain ⟨same, answered, -⟩ := advance_of_attempted grounded attempted addressable
  rw [← device] at ran
  refine ⟨content, image, ?_⟩
  rw [step_commit ran, answered, same]
  rfl

theorem tidy_empty : ({} : FileSystem).Tidy := by
  have absent (names : List String) (identity : Nat) : FileSystem.entry? {} names ≠ some (.file identity) := by
    unfold entry?
    split
    · exact nofun
    · exact nofun
  exact ⟨fun names identity found => absurd found (absent names identity),
    fun names others identity found _ => absurd found (absent names identity)⟩

theorem run_append (session : FileSession) (first later : List FileOperation) :
    session.run (first ++ later) = (session.run first).run later := by
  induction first generalizing session with
  | nil => rfl
  | cons operation rest ih => exact ih _

/-- What a commit of a value that is staged in a new database comes to. -/
theorem attempted_in_new_file {handle : Handle}
    (held : handle = ((new { pageSize := 512 }).reopened .createAndWrite { pageSize := 512 } "p").restaged
      (KeyMap.empty.insert [0x61] (.value [0x31]))) :
    handle.Grounded ∧ Attempted handle (handle.laidOut handle.staged.changes) ∧
      (handle.advance (handle.laidOut handle.staged.changes)).handle = handle.advanced handle.staged.changes ∧
      (handle.advanced handle.staged.changes).Grounded ∧ (handle.advanced handle.staged.changes).image.size = 1024 := by
  have valid : Settings.validate { pageSize := 512 } = .ok () := rfl
  have fits : Change.Fits ⟨[0x61], some [0x31]⟩ := by decide
  have grounded : handle.Grounded := held ▸ (grounded_new valid).of_same rfl rfl rfl rfl rfl
  have staged : handle.staged = KeyMap.empty.insert [0x61] (.value [0x31]) := held ▸ rfl
  have page : handle.pageSize = 512 := held ▸ rfl
  have header : handle.image.size = 512 := held ▸ size_newImage _
  have attempted := attempted_single (held ▸ rfl) (held ▸ rfl) staged fits
  have size := size_advance_single grounded staged
  rw [page, header] at size
  replace size : _ = 1024 := size
  obtain ⟨same, -, further⟩ := advance_of_attempted grounded attempted (by omega)
  rw [same] at size
  exact ⟨grounded, attempted, same, further, size⟩

theorem put_in_new_file :
    ∃ database events before identity session,
      (openPath (FileSystem.host none) "p" .createAndWrite { pageSize := 512 }).run {}
        = (.ok ⟨.ok database, events⟩, before) ∧
      session = (⟨database, before⟩ : FileSession).run [.operate (.put [0x61] [0x31] .upsert)] ∧
      ({} : FileSystem).Evolves session.files ∧
      session.database.device = FileSystem.device none ⟨"p", .file identity, true⟩ ∧
      session.files.Stands "p" [".", "p"] identity ∧ session.files.content identity = session.handle.image ∧
      session.handle = ((new { pageSize := 512 }).reopened .createAndWrite { pageSize := 512 } "p").restaged
        (KeyMap.empty.insert [0x61] (.value [0x31])) := by
  have valid : Settings.validate { pageSize := 512 } = .ok () := rfl
  have resolved : ({} : FileSystem).resolve "p" = .ok (.named [".", "p"] false) := resolve_name {} (by decide)
  obtain ⟨identity, events, before, opened, evolves, stands, image⟩ :=
    openPath_of_absent tidy_empty resolved (by decide) rfl valid
  generalize made : (new { pageSize := 512 }).reopened .createAndWrite { pageSize := 512 } "p" = handle at opened
  have bare : handle.staged = KeyMap.empty := made ▸ rfl
  have writable : handle.access = .write := made ▸ rfl
  have stepped : (⟨⟨FileSystem.device none ⟨"p", .file identity, true⟩, handle⟩, before⟩ : FileSession).run
        [.operate (.put [0x61] [0x31] .upsert)]
      = ⟨⟨FileSystem.device none ⟨"p", .file identity, true⟩,
          handle.restaged (KeyMap.empty.insert [0x61] (.value [0x31]))⟩, before⟩ := by
    have staged := Session.step_put writable {} [0x61] [0x31]
    rw [bare] at staged
    exact congrArg (fun session : Session => FileSession.withHandle ⟨⟨_, handle⟩, before⟩ session.handle) staged
  refine ⟨_, events, before, identity, _, opened, stepped.symm, evolves, rfl, stands, ?_, ?_⟩
  · rw [image, ← made]
    rfl
  · rfl

/-- A database is opened for writing by its path, and runs through any operations, where no copy is
exported to where the path leads. When a commit then reports a checkpoint that it appended, every new
opening of the path finds it clean, with the history and the documents of the handle. -/
theorem reported_checkpoint_is_durable {files before : FileSystem} {mode : OpenMode} {settings : Settings}
    {database : OpenDatabase FileSystem.Execution} {events : List Event} (tidy : files.Tidy) (calm : files.plan = [])
    (writable : mode.isWritable = true)
    (opened : (openPath (FileSystem.host none) path mode settings).run files = (.ok ⟨.ok database, events⟩, before))
    {operations : List FileOperation} (apart : Elsewhere before path operations) {checkpoint : Nat}
    (committed : ((⟨database, before⟩ : FileSession).run operations).step (.operate .commit)
      = (.ok (.committed checkpoint), after))
    (appended : checkpoint ≠ ((⟨database, before⟩ : FileSession).run operations).handle.checkpoint)
    (addressable : after.handle.image.size < 256 ^ 8) :
    after.files.OpensAt path fun fresh =>
      fresh.recovery = .clean ∧ fresh.checkpoint = checkpoint ∧ fresh.history = after.handle.history ∧
        fresh.documents = after.handle.documents := by
  obtain ⟨names, identity, device, stands, evolves, grounded, image, bare⟩ := of_openPath tidy writable opened
  have linked : (⟨database, before⟩ : FileSession).Linked path names identity :=
    ⟨evolves.plan.trans calm, evolves.tidy, device, stands.resolved, stands.short, .inr ⟨stands.file, image.symm⟩,
      Sound.of_staged_empty bare⟩
  obtain ⟨last, -⟩ := linked.run apart
  obtain ⟨answer, final, stepped, followed⟩ := commit_followed last
  have grown := Session.size_mono followed.image
  rw [committed] at stepped
  obtain ⟨-, rfl⟩ := Prod.mk.inj stepped
  exact last.opens_appended (linked.grounded_run grounded apart (Nat.lt_of_le_of_lt grown addressable)) committed
    appended addressable

/-- A value is put and a copy is written to another path. The commit then reports checkpoint 1024, and the
path opens at it. -/
theorem checkpoint_found_after_copy :
    ∃ database events before after,
      (openPath (FileSystem.host none) "p" .createAndWrite { pageSize := 512 }).run {}
        = (.ok ⟨.ok database, events⟩, before) ∧
      ((⟨database, before⟩ : FileSession).run [.operate (.put [0x61] [0x31] .upsert), .exportTo "q"]).step (.operate .commit)
        = (.ok (.committed 1024), after) ∧
      after.files.OpensAt "p" fun fresh =>
        fresh.recovery = .clean ∧ fresh.checkpoint = 1024 ∧ fresh.history = after.handle.history ∧
          fresh.documents = after.handle.documents := by
  obtain ⟨database, events, before, identity, session, opened, named, evolves, device, stands, image, held⟩ := put_in_new_file
  have here (files : FileSystem) : files.resolve "p" = .ok (.named [".", "p"] false) := resolve_name files (by decide)
  have there (files : FileSystem) : files.resolve "q" = .ok (.named [".", "q"] false) := resolve_name files (by decide)
  have beside : Path.temporary "q" = "q.tmp" := by cbv
  have apart : Elsewhere before "p" [.operate (.put [0x61] [0x31] .upsert), .exportTo "q"] := by
    intro target mem
    obtain rfl : target = "q" := by simpa using mem
    rw [here, there]
    decide
  have other : session.files.resolve "q" ≠ .ok (.named [".", "p"] false) := by
    rw [there]
    decide
  obtain ⟨files, copied, later, kept⟩ := exportTo_keeps evolves.tidy evolves.plan other fun slash => by
    rw [beside, resolve_name _ (by decide)]
    cases slash <;> decide
  have ran : (⟨database, before⟩ : FileSession).run [.operate (.put [0x61] [0x31] .upsert), .exportTo "q"]
      = { session with files } := by
    rw [← copied, named]
    rfl
  obtain ⟨grounded, attempted, same, -, size⟩ := attempted_in_new_file held
  have small := lt_of_eq_of_lt size (show 1024 < 256 ^ 8 by decide)
  obtain ⟨content, -, committed⟩ := step_commit_of_stands { session with files } device later.tidy
    (stands.of_evolves later kept.entry) grounded attempted (same ▸ small)
  replace committed := committed.trans (by rw [show FileSession.handle { session with files } = session.handle from rfl, same, size])
  refine ⟨database, events, before, _, opened, ran ▸ committed, ?_⟩
  refine reported_checkpoint_is_durable tidy_empty rfl rfl opened apart (ran ▸ committed) ?_ ?_
  · rw [ran]
    show 1024 ≠ session.handle.checkpoint
    rw [held]
    decide
  · exact lt_of_eq_of_lt size (by decide)

/-! ### Copies written over the database -/

/-- Once the path stands for a shorter file than the image of the handle, a commit still appends to that
file and reports a checkpoint, which no opening of the path finds. -/
theorem lost_of_shorter (session : FileSession) {pending : PendingCheckpoint} {entry : Entry}
    (device : session.database.device = FileSystem.device none ⟨path, entry, true⟩) (tidy : session.files.Tidy)
    (stands : session.files.Stands path names identity)
    (shorter : (session.files.content identity).size < session.handle.image.size) (grounded : session.handle.Grounded)
    (attempted : Attempted session.handle pending) (addressable : (session.handle.advance pending).handle.image.size < 256 ^ 8) :
    ∃ after, session.step (.operate .commit) = (.ok (.committed (session.handle.advance pending).handle.image.size), after) ∧
      ¬ after.files.OpensAt path fun fresh => fresh.checkpoint = (session.handle.advance pending).handle.image.size := by
  obtain ⟨content, image, stepped⟩ := step_commit_of_stands session device tidy stands grounded attempted addressable
  refine ⟨_, stepped, fun opens => ?_⟩
  have behind := evolves_store tidy identity content
  have still : (session.files.store identity content).Stands path names identity := stands.of_evolves behind rfl
  have held : ((session.files.store identity content).content identity).size
      = (session.files.content identity).size + pending.bytes.length := by
    rw [content_store, image, Image.size_append, Image.size_ofBytes]
  have total : (session.handle.advance pending).handle.image.size = session.handle.image.size + pending.bytes.length := by
    rw [image_advance, Image.size_append, Image.size_ofBytes]
  have some : 0 < pending.bytes.length := by
    obtain ⟨-, -, rfl⟩ := attempted_spec attempted
    have longer := grounded.length_laidOut session.handle.staged.changes
    have room := grounded.room_laidOut session.handle.staged.changes
    omega
  obtain ⟨events, ran⟩ := openPath_of_stands behind.tidy still (by omega) .readOnly validate_default
  obtain ⟨database, reports, files, opened, checkpoint⟩ := opens .readOnly {} validate_default
  replace opened := ran.symm.trans opened
  cases made : ofImage ((session.files.store identity content).content identity) .readOnly {} path with
  | error error =>
    rw [made] at opened
    cases opened
  | ok pair =>
    rw [made] at opened
    cases opened
    obtain ⟨ground, whole, -⟩ := grounded_of_ofImage made
    have inside := ground.checkpoint_le
    rw [whole] at inside
    replace checkpoint : pair.1.checkpoint = (session.handle.advance pending).handle.image.size := checkpoint
    omega

theorem remove_of_only {handle : Handle} {key value : Bytes} (writable : handle.access = .write)
    (committed : ∀ other, (handle.advanced handle.staged.changes).get? other = handle.get? other)
    (only : ∀ other, handle.get? other = if other = key then some value else none) :
    (handle.advanced handle.staged.changes).remove key
        = .ok (true, (handle.advanced handle.staged.changes).restaged (KeyMap.empty.insert key .removed)) ∧
      ((handle.advanced handle.staged.changes).restaged (KeyMap.empty.insert key .removed)).documents = [] := by
  generalize seen : handle.advanced handle.staged.changes = after at *
  have bare : after.staged = KeyMap.empty := seen ▸ rfl
  have plain : after.Sound := Sound.of_staged_empty bare
  have there : after.contains key = true := by
    rw [contains_eq plain, committed, only, if_pos rfl]
    rfl
  have indexed : after.index.contains key = true := by
    unfold contains at there
    rw [bare, KeyMap.get?_empty] at there
    exact there
  have removed : after.remove key = .ok (true, after.restaged (KeyMap.empty.insert key .removed)) := by
    unfold Handle.remove
    rw [ensureWritable_ok_iff.mpr (show after.access = .write from seen ▸ writable)]
    simp only [there, indexed, Bool.true_eq_false, if_false, if_true, bare]
    rfl
  refine ⟨removed, List.eq_nil_iff_forall_not_mem.mpr fun ⟨other, held⟩ mem => ?_⟩
  obtain ⟨-, still, -, found⟩ := remove_spec plain removed
  rw [mem_documents_iff still, found, committed, only] at mem
  split at mem
  · contradiction
  · rename_i different
    contradiction

/-- A copy that is written over the database in the current directory is what stands there afterwards. -/
theorem exportTo_own_path (tidy : session.files.Tidy) (calm : session.files.plan = [])
    (directories : SameDirectories {} session.files) {bytes : Bytes} (made : session.handle.compacted = .ok bytes) :
    ∃ answer files names identity, session.step (.exportTo "p") = (.ok answer, { session with files }) ∧ files.Tidy ∧
      files.Stands "p" names identity ∧ (files.content identity).bytes = bytes := by
  have plain (names : List String) (deep : ¬ (names = [] ∨ names = currentDirectory)) :
      session.files.entry? names ≠ some .directory := by
    rw [ne_eq, ← directories names, entry?, if_neg deep]
    exact (Option.some_ne_none _).symm
  rcases step_exportTo tidy calm "p" with ⟨error, failed, -⟩ | ⟨bytes, result, files, again, replaced, stepped⟩
  · rw [made] at failed
    contradiction
  · obtain rfl := Except.ok.inj (made.symm.trans again)
    obtain rfl : result = .ok () := by
      have beside : Path.temporary "p" = "p.tmp" := by cbv
      have sibling : session.files.resolve (Path.temporary "p") = .ok (.named [".", "p.tmp"] false) := by
        rw [beside, resolve_name _ (by decide)]
      exact replaced.succeeds tidy (resolve_name _ (by decide)) (by decide) (plain _ (by decide)) sibling (by decide)
        (plain _ (by decide)) (by cbv)
    obtain ⟨names, identity, stands, content⟩ := replaced.stands tidy
    exact ⟨_, files, names, identity, stepped, (replaced.evolves tidy).tidy, stands, content⟩

theorem removed_in_new_file :
    ∃ database events before entry session,
      (openPath (FileSystem.host none) "p" .createAndWrite { pageSize := 512 }).run {}
        = (.ok ⟨.ok database, events⟩, before) ∧
      session = (⟨database, before⟩ : FileSession).run
        [.operate (.put [0x61] [0x31] .upsert), .operate .commit, .operate (.remove [0x61])] ∧
      ({} : FileSystem).Evolves session.files ∧ session.database.device = FileSystem.device none ⟨"p", entry, true⟩ ∧
      session.handle.Grounded ∧ session.handle.access = .write ∧ session.handle.poisoned = false ∧
      session.handle.pageSize = 512 ∧ session.handle.image.size = 1024 ∧ session.handle.checkpoint = 1024 ∧
      session.handle.staged = KeyMap.empty.insert [0x61] .removed ∧ session.handle.documents = [] := by
  obtain ⟨database, events, before, identity, session, opened, named, evolves, device, stands, image, held⟩ := put_in_new_file
  obtain ⟨grounded, attempted, same, further, size⟩ := attempted_in_new_file held
  have staged : session.handle.staged = KeyMap.empty.insert [0x61] (.value [0x31]) := held ▸ rfl
  have writable : session.handle.access = .write := held ▸ rfl
  have healthy : session.handle.poisoned = false := held ▸ rfl
  have page : session.handle.pageSize = 512 := held ▸ rfl
  obtain ⟨content, -, committed⟩ :=
    step_commit_of_stands session device evolves.tidy stands grounded attempted (by rw [same]; omega)
  have only (other : Bytes) : session.handle.get? other = if other = [0x61] then some [0x31] else none := by
    unfold Handle.get?
    rw [staged, KeyMap.get?_insert]
    by_cases here : other = [0x61]
    · simp only [if_pos here]
    · simp only [if_neg here, KeyMap.get?_empty]
      rw [held]
      rfl
  obtain ⟨count, fit, -⟩ := attempted_spec attempted
  obtain ⟨removed, bare⟩ := remove_of_only writable (fun other => grounded.get?_advanced count fit (by omega)) only
  have current : (session.handle.advanced session.handle.staged.changes).checkpoint = 1024 :=
    (grounded.size_advanced _).symm.trans size
  generalize advanced : session.handle.advanced session.handle.staged.changes = handle at *
  have stepped : ((⟨handle, {}⟩ : Session).step (.remove [0x61])).2
      = ⟨handle.restaged (KeyMap.empty.insert [0x61] .removed), {}⟩ := by
    unfold Session.step
    simp only [removed]
  have dropped := congrArg (fun staged : Session =>
    ({ session.withHandle staged.handle with files := session.files.store identity content } : FileSession)) stepped
  refine ⟨database, events, before, .file identity,
    { session.withHandle (handle.restaged (KeyMap.empty.insert [0x61] .removed)) with
      files := session.files.store identity content }, opened, ?_, evolves.trans (evolves_store evolves.tidy identity content),
    device, further.of_same rfl rfl rfl rfl rfl, ?_, ?_, ?_, size, current, rfl, bare⟩
  · rw [show [FileOperation.operate (.put [0x61] [0x31] .upsert), .operate .commit, .operate (.remove [0x61])]
      = [.operate (.put [0x61] [0x31] .upsert)] ++ [.operate .commit, .operate (.remove [0x61])] from rfl, run_append, ← named,
      run, committed]
    exact dropped.symm
  · exact advanced ▸ writable
  · exact advanced ▸ healthy
  · exact advanced ▸ page

/-- The only document is removed and a copy, which is a header alone, is written over the database. The
commit of the removal reports checkpoint 1536, but the path leads to 1024 bytes, and no opening finds it. -/
theorem copy_over_database_loses_checkpoint :
    ∃ database events before session after,
      (openPath (FileSystem.host none) "p" .createAndWrite { pageSize := 512 }).run {}
        = (.ok ⟨.ok database, events⟩, before) ∧
      session = (⟨database, before⟩ : FileSession).run
        [.operate (.put [0x61] [0x31] .upsert), .operate .commit, .operate (.remove [0x61]), .exportTo "p"] ∧
      session.handle.checkpoint = 1024 ∧ session.step (.operate .commit) = (.ok (.committed 1536), after) ∧
      ¬ after.files.OpensAt "p" fun fresh => fresh.checkpoint = 1536 := by
  obtain ⟨database, events, before, entry, session, opened, named, evolves, device, grounded, writable, healthy, page, size,
    current, staged, bare⟩ := removed_in_new_file
  have made : session.handle.compacted = .ok session.handle.blank.image.bytes :=
    compacted_ok_iff.mpr (.inl ⟨bare, Image.ofBytes_bytes _⟩)
  obtain ⟨answer, files, names, identity, copied, tidy, stands, bytes⟩ :=
    exportTo_own_path evolves.tidy evolves.plan evolves.directories made
  have header : (files.content identity).size = 512 := by
    rw [← Image.length_bytes, bytes, Image.length_bytes]
    exact (size_newImage _).trans page
  have changes : session.handle.staged.changes = [⟨[0x61], none⟩] := by
    rw [staged]
    exact Staging.changes_insert_empty _ rfl
  have attempted := attempted_of_change writable healthy changes (by decide)
  have total : (session.handle.advance (session.handle.laidOut session.handle.staged.changes)).handle.image.size = 1536 := by
    rw [image_advance, Image.size_append, Image.size_ofBytes, grounded.length_laidOut, changes]
    show roundUp (session.handle.image.size + (18 + 0) + 40) session.handle.pageSize = 1536
    rw [size, page]
    decide
  -- the handle keeps the image that it had, and the file under its path is a header alone
  have shorter : (files.content identity).size < session.handle.image.size := by omega
  obtain ⟨after, committed, lost⟩ :=
    lost_of_shorter { session with files } device tidy stands shorter grounded attempted (lt_of_eq_of_lt total (by decide))
  refine ⟨database, events, before, { session with files }, after, opened, ?_, current, ?_, ?_⟩
  · rw [show [FileOperation.operate (.put [0x61] [0x31] .upsert), .operate .commit, .operate (.remove [0x61]), .exportTo "p"]
      = [.operate (.put [0x61] [0x31] .upsert), .operate .commit, .operate (.remove [0x61])] ++ [.exportTo "p"] from rfl,
      run_append, ← named, run, copied]
    rfl
  · rw [← total]
    exact committed
  · rw [← total]
    exact lost

end FileSession
end CheckpointStore
