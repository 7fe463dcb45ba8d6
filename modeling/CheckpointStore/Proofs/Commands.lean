import CheckpointStore.Proofs.FileSessions
import CheckpointStore.Proofs.Records

/-!
# Commands and versions

Every command opens the file anew. What it answers is what is answered for the versions in the file, and
it leaves the file with the versions after it; where those are the same, no file changes at all.
-/

namespace CheckpointStore

/-! ### Commands at work -/

namespace Work

open FileSystem

variable {α β : Type} {files between after : FileSystem} {work : Work Execution α} {next : α → Work Execution β}

/-- What the work comes to and leaves of the files, whatever was reported before. -/
def ComesTo (work : Work Execution α) (files : FileSystem) (result : Except CommandError α) (after : FileSystem) : Prop :=
  ∀ events, ∃ later, (work.run.run events).run files = (.ok (result, later), after)

theorem comesTo_pure (a : α) (files : FileSystem) : (pure a : Work Execution α).ComesTo files (.ok a) files :=
  fun events => ⟨events, rfl⟩

theorem comesTo_throw (error : CommandError) (files : FileSystem) :
    (throw error : Work Execution α).ComesTo files (.error error) files :=
  fun events => ⟨events, rfl⟩

theorem run_bind (work : Work Execution α) (next : α → Work Execution β) (events : List Event) :
    (work >>= next).run.run events = work.run.run events >>= fun came =>
      match came.1 with
      | .ok a => (next a).run.run came.2
      | .error error => (pure (.error error, came.2) : Execution _) := by
  show ((work.run.run events) >>= fun came => (ExceptT.bindCont next came.1).run came.2) = _
  refine congrArg (work.run.run events >>= ·) ?_
  funext came
  obtain ⟨result, later⟩ := came
  cases result <;> rfl

theorem ComesTo.bind {a : α} {result : Except CommandError β} (first : work.ComesTo files (.ok a) between)
    (second : (next a).ComesTo between result after) : (work >>= next).ComesTo files result after := by
  intro events
  obtain ⟨middle, ran⟩ := first events
  obtain ⟨later, again⟩ := second middle
  refine ⟨later, ?_⟩
  rw [run_bind, execution_bind, ran]
  exact again

theorem ComesTo.bind_error {error : CommandError} (failed : work.ComesTo files (.error error) after) :
    (work >>= next).ComesTo files (.error error) after := by
  intro events
  obtain ⟨later, ran⟩ := failed events
  refine ⟨later, ?_⟩
  rw [run_bind, execution_bind, ran]
  rfl

theorem comesTo_lift {action : Execution α} {a : α} (ran : action.run files = (.ok a, after)) :
    (liftM action : Work Execution α).ComesTo files (.ok a) after := by
  intro events
  refine ⟨events, ?_⟩
  show ((action >>= fun a => pure (a, events)) >>= fun came => (pure (Except.ok came.1, came.2) : Execution _)).run files = _
  rw [execution_bind, execution_bind, ran]
  rfl

theorem comesTo_report (reported : Reported α) (files : FileSystem) :
    (report reported : Work Execution α).ComesTo files (reported.result.mapError .ofDatabase) files := by
  intro events
  refine ⟨events ++ reported.events, ?_⟩
  unfold report
  cases reported.result <;> rfl

theorem comesTo_openFile {path : String} {settings : Settings} {mode : OpenMode} {reported : Reported (OpenDatabase Execution)}
    (ran : (Handle.openPath (host none) path mode settings).run files = (.ok reported, after)) :
    (openFile (host none) settings path mode).ComesTo files (reported.result.mapError .ofDatabase) after :=
  (comesTo_lift ran).bind (comesTo_report reported after)

theorem comesTo_commit {database : OpenDatabase Execution} {handle : Handle} {committed : Committed}
    (ran : (handle.commit database.device).run files = (.ok committed, after)) :
    (commit database handle).ComesTo files (committed.result.mapError .ofDatabase) after :=
  (comesTo_lift ran).bind (comesTo_report _ after)

end Work

namespace FileSystem

open Handle Work

variable {files : FileSystem} {path : String} {names : List String} {state : Option Versions} {versions : Versions}

/-- The path leads to a file with these versions, or to no file where there are none. -/
structure Serves (files : FileSystem) (path : String) (names : List String) (state : Option Versions) : Prop where
  tidy : files.Tidy
  resolved : files.resolve path = .ok (.named names false)
  short : (names.getLast?.getD "").utf8ByteSize ≤ maxName
  absent : state = none → files.entry? names = none
  present : ∀ versions, state = some versions → ∃ (identity : Nat) (handle : Handle),
    files.entry? names = some (.file identity) ∧ files.content identity = handle.image ∧ handle.Records versions

/-- What an opening gives of a file with these versions. -/
structure Opens (files : FileSystem) (path : String) (mode : OpenMode) (versions : Versions)
    (database : OpenDatabase Execution) : Prop where
  stands : ∃ names identity, files.Stands path names identity ∧ files.content identity = database.handle.image ∧
    database.device = FileSystem.device none ⟨path, .file identity, mode.isWritable⟩
  records : database.handle.Records versions
  access : database.handle.access = accessOf mode
  healthy : database.handle.poisoned = false
  clean : database.handle.recovery = .clean

theorem Serves.opens (serves : files.Serves path names (some versions)) (mode : OpenMode) {settings : Settings}
    (valid : settings.validate = .ok ()) :
    ∃ database, (Work.openFile (host none) settings path mode).ComesTo files (.ok database) files ∧
      files.Opens path mode versions database := by
  obtain ⟨identity, handle, file, content, records⟩ := serves.present versions rfl
  have stands : files.Stands path names identity := ⟨serves.resolved, serves.short, file⟩
  obtain ⟨events, opened⟩ := openPath_of_grounded serves.tidy stands records.grounded content mode valid
  exact ⟨_, comesTo_openFile opened, ⟨⟨names, identity, stands, content, rfl⟩, records.reopened mode settings path, rfl, rfl,
    records.undamaged⟩⟩

theorem Serves.stat_absent (serves : files.Serves path names none) : files.stat path = .error .notFound := by
  unfold stat
  simp only [serves.resolved, find_ok_iff.mpr ⟨serves.short, serves.absent rfl⟩]

/-- Where there is no file, none is opened that is not to be created. -/
theorem Serves.missing (serves : files.Serves path names none) (mode : OpenMode)
    (existing : mode ≠ .createAndWrite) (settings : Settings) :
    (Work.openFile (host none) settings path mode).ComesTo files
      (.error (.database (.storage (.io (.openDatabase path) .notFound)))) files := by
  have refused : files.openFile path mode.isWritable (mode == .createAndWrite)
      = (.error (.io (.openDatabase path) .notFound), files) := by
    unfold FileSystem.openFile fileForWriting
    rw [serves.stat_absent]
    cases mode with
    | createAndWrite => contradiction
    | write => rfl
    | readOnly => rfl
  have ran : (openPath (host none) path mode settings).run files
      = (.ok ⟨.error (.storage (.io (.openDatabase path) .notFound)),
          [.fileNotOpened path (.io (.openDatabase path) .notFound)]⟩, files) := by
    unfold openPath
    rw [execution_bind, openDevice_run, refused]
    rfl
  exact comesTo_openFile ran

/-- The work answers so, leaves these versions, and leaves all files alone where they are the same. -/
def Served (work : Work Execution Value) (files : FileSystem) (path : String) (names : List String) (state : Option Versions)
    (outcome : Except CommandError Value × Option Versions) : Prop :=
  ∃ after, work.ComesTo files outcome.1 after ∧ after.Serves path names outcome.2 ∧ (outcome.2 = state → after = files)

variable {work : Work Execution Value} {settings : Settings}

theorem Serves.unchanged (serves : files.Serves path names state) {answer : Except CommandError Value}
    (comes : work.ComesTo files answer files) : Served work files path names state (answer, state) :=
  ⟨files, comes, serves, fun _ => rfl⟩

/-! ### Creating -/

theorem comesTo_pathExists (files : FileSystem) (path : String) :
    (liftM ((host none).pathExists path) : Work Execution Bool).ComesTo files (.ok (files.pathExists path)) files :=
  comesTo_lift rfl

theorem Serves.create (serves : files.Serves path names none) (valid : settings.validate = .ok ()) :
    Served (Work.create (host none) settings path) files path names none
      (Call.answer path ⟨settings, .create⟩ none) := by
  obtain ⟨identity, events, after, opened, evolves, stands, content⟩ :=
    openPath_of_absent serves.tidy serves.resolved serves.short (serves.absent rfl) valid
  have missing : files.pathExists path = false := by
    rw [pathExists, serves.stat_absent]
    rfl
  refine ⟨after, ?_, ⟨evolves.tidy, stands.resolved, stands.short, nofun, ?_⟩, nofun⟩
  · refine (comesTo_pathExists files path).bind ?_
    rw [missing]
    exact (comesTo_openFile opened).bind (comesTo_pure _ _)
  · rintro versions same
    obtain rfl := Option.some.inj same
    exact ⟨identity, new settings, stands.file, content, records_new valid⟩

theorem Serves.create_again (serves : files.Serves path names (some versions)) (settings : Settings) :
    Served (Work.create (host none) settings path) files path names (some versions)
      (Call.answer path ⟨settings, .create⟩ (some versions)) := by
  obtain ⟨identity, handle, file, -, -⟩ := serves.present versions rfl
  have exists_ : files.pathExists path = true := by
    rw [pathExists, stat_file_iff.mpr ⟨names, serves.resolved, serves.short, file⟩]
    rfl
  refine serves.unchanged ((comesTo_pathExists files path).bind ?_)
  rw [exists_]
  exact (comesTo_throw _ _).bind_error

/-! ### Reading -/

/-- A file is opened as of a version, if there is such a one. -/
theorem Serves.openView (serves : files.Serves path names (some versions)) (valid : settings.validate = .ok ())
    (checkpoint : Option Nat) :
    match versions.view checkpoint with
    | .ok version => ∃ handle, (Work.openView (host none) settings path checkpoint).ComesTo files (.ok handle) files ∧
        handle.checkpoint = version.checkpoint ∧ handle.Presents version.documents
    | .error error => (Work.openView (host none) settings path checkpoint).ComesTo files (.error error) files := by
  obtain ⟨database, opened, found⟩ := serves.opens .readOnly valid
  cases checkpoint with
  | none => exact ⟨database.handle, opened.bind (comesTo_pure _ _), found.records.checkpoint, found.records.newest⟩
  | some checkpoint =>
    have viewed := found.records.viewAt checkpoint
    have shown := comesTo_report (database.handle.viewAt checkpoint) files
    unfold Versions.view
    cases sought : versions.version? (some checkpoint) with
    | none =>
      rw [sought] at viewed
      dsimp only at viewed ⊢
      rw [viewed] at shown
      exact opened.bind shown
    | some version =>
      rw [sought] at viewed
      obtain ⟨view, result, at_, presents⟩ := viewed
      rw [result] at shown
      exact ⟨view, opened.bind shown, at_, presents⟩

theorem Serves.get (serves : files.Serves path names (some versions)) (valid : settings.validate = .ok ()) (key : String)
    (checkpoint : Option Nat) :
    (Work.get (host none) settings path key checkpoint).ComesTo files (versions.get key checkpoint) files := by
  have opened := serves.openView valid checkpoint
  unfold Versions.get
  cases sought : versions.view checkpoint with
  | error error =>
    rw [sought] at opened
    exact opened.bind_error
  | ok version =>
    rw [sought] at opened
    obtain ⟨handle, opened, at_, presents⟩ := opened
    refine opened.bind ?_
    rw [presents.getDocument?, at_]
    exact (comesTo_pure _ _).bind (comesTo_pure _ _)

theorem Serves.list (serves : files.Serves path names (some versions)) (valid : settings.validate = .ok ())
    (checkpoint : Option Nat) :
    (Work.list (host none) settings path checkpoint).ComesTo files (versions.list checkpoint) files := by
  have opened := serves.openView valid checkpoint
  unfold Versions.list
  cases sought : versions.view checkpoint with
  | error error =>
    rw [sought] at opened
    exact opened.bind_error
  | ok version =>
    rw [sought] at opened
    obtain ⟨handle, opened, at_, presents⟩ := opened
    refine opened.bind ?_
    rw [presents.listed, at_]
    exact (comesTo_pure _ _).bind (comesTo_pure _ _)

theorem Serves.info (serves : files.Serves path names (some versions)) (valid : settings.validate = .ok ()) :
    (Work.info (host none) settings path).ComesTo files (.ok versions.info) files := by
  obtain ⟨database, opened, found⟩ := serves.opens .readOnly valid
  obtain ⟨-, records, -, -, clean⟩ := found
  refine opened.bind ?_
  have stats : database.handle.stats = ⟨versions.newest.checkpoint,
      (versions.committed.tail.head?.map Version.checkpoint).getD 0, versions.committed.length,
      versions.newest.documents.length, 0, versions.fileSize, versions.pageSize, .clean⟩ := by
    have listed : database.handle.checkpoints.length = versions.committed.length := by
      rw [← List.length_reverse, ← Handle.history, records.history, List.length_map]
    have pending : database.handle.staged.size = 0 := by
      rw [records.newest.bare, ← KeyMap.length_entries, KeyMap.entries_empty, List.length_nil]
    rw [Handle.stats, records.checkpoint, records.previousCheckpoint, listed, records.newest.size, pending, records.size,
      records.page, clean]
  rw [stats, clean]
  exact comesTo_pure _ _

theorem Serves.history (serves : files.Serves path names (some versions)) (valid : settings.validate = .ok ()) :
    (Work.history (host none) settings path).ComesTo files (.ok versions.history) files := by
  obtain ⟨database, opened, found⟩ := serves.opens .readOnly valid
  refine opened.bind ?_
  rw [found.records.history, List.map_map]
  exact comesTo_pure _ _

/-! ### Changing -/

section Changing

variable {database : OpenDatabase Execution} {key : String} {document : Option Value}

/-- A commit that does not come to its append answers as in memory, and leaves the files alone. -/
theorem comesTo_commit_idle {handle : Handle} (idle : ∀ pending, ¬ Attempted handle pending) {result : Except DatabaseError Nat}
    (answered : (handle.commit MemoryStore.device {}).1.result = result) (database : OpenDatabase Execution) :
    (Work.commit database handle).ComesTo files (result.mapError .ofDatabase) files := by
  obtain ⟨committed, settled⟩ := commit_of_unattempted handle idle
  have same : committed.result = result := by
    rw [← answered, settled MemoryStore.device]
    rfl
  rw [← same]
  refine comesTo_commit ?_
  rw [settled]
  rfl

theorem Opens.commit_nothing (found : files.Opens path .write versions database) :
    (Work.commit database database.handle).ComesTo files (.ok versions.newest.checkpoint) files := by
  have nothing : database.handle.staged.changes = [] := by
    rw [found.records.newest.bare]
    rfl
  obtain ⟨answered, -, -⟩ := commit_of_unchanged found.access found.healthy nothing {}
  rw [found.records.checkpoint] at answered
  exact comesTo_commit_idle (fun pending attempted => attempted.changed nothing) answered database

/-- A block that is too large is refused before anything is written. -/
theorem Opens.commit_refused (found : files.Opens path .write versions database)
    (large : Change.lengthLimit ≤ (Change.ofDocument key document).encodedLength) :
    (Work.commit database (database.handle.changing key document)).ComesTo files
      (.error (.database (.storage (.tooLarge (.blockLength (Change.ofDocument key document).encodedLength))))) files := by
  have changes := changes_changing database.handle key document
  have built : PendingCheckpoint.build (database.handle.changing key document).image.size
      (database.handle.changing key document).pageSize (database.handle.changing key document).current
      (database.handle.changing key document).staged.changes
        = .error (.tooLarge (.blockLength (Change.ofDocument key document).encodedLength)) := by
    rw [changes, PendingCheckpoint.build, List.length_singleton, if_neg (by decide), Change.encodeAll?, Change.encode?,
      if_pos large]
  have changed : (database.handle.changing key document).staged.changes ≠ [] := by
    rw [changes]
    exact List.cons_ne_nil _ _
  have refused : Refused (database.handle.changing key document) _ := .tooLarge found.access found.healthy changed built
  obtain ⟨answered, -, -⟩ := commit_of_refused refused {}
  refine comesTo_commit_idle (fun pending attempted => ?_) answered database
  have laid := attempted.built
  rw [built] at laid
  contradiction

theorem Opens.commit_changing (serves : files.Serves path names (some versions)) (found : files.Opens path .write versions database)
    (readable : ∀ value, document = some value → Value.decode value.encode = .ok value)
    (fits : (Change.ofDocument key document).Fits) (addressable : (versions.next key document).checkpoint < 256 ^ 8) :
    ∃ after, (Work.commit database (database.handle.changing key document)).ComesTo files
        (.ok (versions.next key document).checkpoint) after ∧
      after.Serves path names (some { versions with committed := versions.next key document :: versions.committed }) := by
  obtain ⟨⟨others, identity, stands, content, device⟩, records, access, healthy, -⟩ := found
  obtain rfl : names = others := (Place.named.inj (Except.ok.inj (serves.resolved.symm.trans stands.resolved))).1
  have attempted : Attempted (database.handle.changing key document) _ :=
    attempted_of_change access healthy (changes_changing database.handle key document) fits
  obtain ⟨written, ran, image⟩ := commit_file ⟨path, .file identity, OpenMode.write.isWritable⟩ serves.tidy stands attempted
  have size : ((database.handle.changing key document).advance ((database.handle.changing key document).laidOut
      (database.handle.changing key document).staged.changes)).handle.image.size = (versions.next key document).checkpoint := by
    rw [image_advance]
    exact records.size_amended
  obtain ⟨-, answered, -⟩ := advance_of_attempted records.grounded_changing attempted (size ▸ addressable)
  have evolves := evolves_store serves.tidy identity written
  rw [← device] at ran
  have committed := comesTo_commit ran
  rw [answered, size] at committed
  refine ⟨_, committed, evolves.tidy, evolves.resolve.mpr serves.resolved, serves.short, nofun, ?_⟩
  rintro later same
  obtain rfl := Option.some.inj same
  refine ⟨identity, _, stands.file, ?_, records.committed fits addressable readable⟩
  rw [content_store, image, content]
  rfl

/-- What a put and a removal have in common: a change is staged, and committed. -/
def changeWith (settings : Settings) (path key word : String) (stage : Handle → Except DatabaseError (Bool × Handle)) :
    Work Execution Value := do
  let database ← Work.openFile (host none) settings path .write
  let (applied, handle) ← check (stage database.handle)
  let checkpoint ← Work.commit database handle
  return Versions.changed key word applied checkpoint

theorem Serves.change (serves : files.Serves path names (some versions)) (valid : settings.validate = .ok ())
    {word : String} {applies : Bool} (stage : Handle → Except DatabaseError (Bool × Handle))
    (staged : ∀ database, files.Opens path .write versions database →
      stage database.handle = .ok (applies, if applies then database.handle.changing key document else database.handle))
    (readable : ∀ value, document = some value → Value.decode value.encode = .ok value)
    (addressable : (versions.change key word applies document).2.fileSize < 256 ^ 8) :
    Served (changeWith settings path key word stage) files path names (some versions)
      ((versions.change key word applies document).1, some (versions.change key word applies document).2) := by
  obtain ⟨database, opened, found⟩ := serves.opens .write valid
  have stages : (check (stage database.handle) : Work Execution _).ComesTo files
      (.ok (applies, if applies then database.handle.changing key document else database.handle)) files := by
    rw [staged database found]
    exact comesTo_pure _ _
  unfold Versions.change at addressable ⊢
  dsimp only at addressable ⊢
  cases applies with
  | false =>
    rw [if_pos rfl]
    exact serves.unchanged (opened.bind (stages.bind (found.commit_nothing.bind (comesTo_pure _ _))))
  | true =>
    rw [if_neg (by decide)] at addressable ⊢
    by_cases large : Change.lengthLimit ≤ (Change.ofDocument key document).encodedLength
    · rw [if_pos large]
      exact serves.unchanged (opened.bind (stages.bind (found.commit_refused large).bind_error))
    · rw [if_neg large] at addressable ⊢
      obtain ⟨after, committed, kept⟩ := found.commit_changing serves readable (Nat.not_le.mp large) addressable
      refine ⟨after, opened.bind (stages.bind (committed.bind (comesTo_pure _ _))), kept, fun same => ?_⟩
      -- one more version is not the versions before
      have longer := congrArg (fun versions : Versions => versions.committed.length) (Option.some.inj same)
      simp at longer

theorem Opens.stage_put (found : files.Opens path .write versions database) (key : String) (document : Value) (mode : PutMode) :
    database.handle.putDocument (Bytes.ofString key) document mode
      = .ok (mode.allows (versions.has key),
          if mode.allows (versions.has key) then database.handle.changing key (some document) else database.handle) := by
  have bare := found.records.newest.bare
  unfold putDocument Handle.put
  rw [ensureWritable_ok_iff.mpr found.access, found.records.newest.contains]
  dsimp only
  rw [Versions.has]
  cases mode.allows (Entries.get? key versions.newest.documents).isSome with
  | false => rfl
  | true =>
    rw [bare]
    rfl

theorem Opens.stage_remove (found : files.Opens path .write versions database) (key : String) :
    database.handle.remove (Bytes.ofString key)
      = .ok (versions.has key, if versions.has key then database.handle.changing key none else database.handle) := by
  have bare := found.records.newest.bare
  have contains := found.records.newest.contains key
  have committed : database.handle.index.contains (Bytes.ofString key) = database.handle.contains (Bytes.ofString key) := by
    unfold Handle.contains
    rw [bare, KeyMap.get?_empty]
  unfold Handle.remove
  rw [ensureWritable_ok_iff.mpr found.access, committed, contains]
  dsimp only
  rw [Versions.has]
  cases (Entries.get? key versions.newest.documents).isSome with
  | false => rfl
  | true =>
    rw [bare]
    rfl

theorem Serves.put (serves : files.Serves path names (some versions)) (valid : settings.validate = .ok ()) {text : String}
    {document : Value} (parsed : Json.parse? text = some document) (integral : document.doubles = []) (key : String)
    (mode : PutMode)
    (addressable : (versions.change key "written" (mode.allows (versions.has key)) (some document)).2.fileSize < 256 ^ 8) :
    Served (Work.put (host none) settings path key text mode) files path names (some versions)
      ((versions.change key "written" (mode.allows (versions.has key)) (some document)).1,
        some (versions.change key "written" (mode.allows (versions.has key)) (some document)).2) := by
  have same : Work.put (host none) settings path key text mode = changeWith settings path key "written"
      (fun handle => handle.putDocument (Bytes.ofString key) document mode) := by
    unfold Work.put
    rw [parsed]
    rfl
  rw [same]
  refine serves.change valid _ (fun _ found => found.stage_put key document mode) ?_ addressable
  rintro value held
  obtain rfl := Option.some.inj held
  exact Value.decode_encode_of_parse parsed integral

theorem Serves.remove (serves : files.Serves path names (some versions)) (valid : settings.validate = .ok ()) (key : String)
    (addressable : (versions.change key "removed" (versions.has key) none).2.fileSize < 256 ^ 8) :
    Served (Work.remove (host none) settings path key) files path names (some versions)
      ((versions.change key "removed" (versions.has key) none).1,
        some (versions.change key "removed" (versions.has key) none).2) :=
  serves.change valid (fun handle => handle.remove (Bytes.ofString key)) (fun _ found => found.stage_remove key) nofun
    addressable

end Changing

/-! ### Every command -/

/-- A command answers as its call does on the versions, and leaves a file with the versions after it. -/
theorem Serves.command (serves : files.Serves path names state) (call : Call) (valid : call.settings.validate = .ok ())
    (integral : call.request.Integral)
    (addressable : ∀ versions, (call.answer path state).2 = some versions → versions.fileSize < 256 ^ 8) :
    Served ((call.request.command path).run (host none) call.settings) files path names state (call.answer path state) := by
  obtain ⟨settings, request⟩ := call
  cases request with
  | create =>
    cases state with
    | none => exact serves.create valid
    | some versions => exact serves.create_again settings
  | put key document mode =>
    unfold Call.answer at addressable ⊢
    dsimp only [Request.command, Command.run] at addressable ⊢
    cases parsed : Json.parse? document with
    | none =>
      refine serves.unchanged ?_
      unfold Work.put
      rw [parsed]
      exact comesTo_throw _ _
    | some value =>
      rw [parsed] at addressable
      cases state with
      | none =>
        refine serves.unchanged ?_
        unfold Work.put
        rw [parsed]
        exact (serves.missing .write nofun settings).bind_error
      | some versions => exact serves.put valid parsed (integral value parsed) key mode (addressable _ rfl)
  | remove key =>
    cases state with
    | none => exact serves.unchanged (serves.missing .write nofun settings).bind_error
    | some versions => exact serves.remove valid key (addressable _ rfl)
  | get key checkpoint =>
    cases state with
    | none => exact serves.unchanged (serves.missing .readOnly nofun settings).bind_error.bind_error
    | some versions => exact serves.unchanged (serves.get valid key checkpoint)
  | list checkpoint =>
    cases state with
    | none => exact serves.unchanged (serves.missing .readOnly nofun settings).bind_error.bind_error
    | some versions => exact serves.unchanged (serves.list valid checkpoint)
  | info =>
    cases state with
    | none => exact serves.unchanged (serves.missing .readOnly nofun settings).bind_error
    | some versions => exact serves.unchanged (serves.info valid)
  | history =>
    cases state with
    | none => exact serves.unchanged (serves.missing .readOnly nofun settings).bind_error
    | some versions => exact serves.unchanged (serves.history valid)

/-! ### Commands one after the other -/

/-- A command in a process of its own, without a crash point: its answer, and the files that it leaves. -/
def perform (path : String) (call : Call) (files : FileSystem) : Except CrashPoint (Except CommandError Value) × FileSystem :=
  let ran := ((((call.request.command path).run (host none) call.settings).run.run []).run files)
  (ran.1.map Prod.fst, ran.2)

theorem perform_eq {call : Call} {answer : Except CommandError Value} {after : FileSystem}
    (comes : ((call.request.command path).run (host none) call.settings).ComesTo files answer after) :
    perform path call files = (.ok answer, after) := by
  obtain ⟨later, ran⟩ := comes []
  unfold perform
  rw [ran]
  rfl

theorem Serves.paged (serves : files.Serves path names state) {versions : Versions} (held : state = some versions) :
    0 < versions.pageSize := by
  obtain ⟨identity, handle, -, -, records⟩ := serves.present versions held
  have bounds := records.grounded.pageSize_bounds
  have page := records.page
  omega

/-- One command as `perform` runs it, in a run whose last file can be addressed. -/
theorem Serves.performed (serves : files.Serves path names state) {call : Call} {rest : List Call}
    (valid : call.settings.validate = .ok ()) (integral : call.request.Integral)
    (addressable : ∀ versions, (inTurn (Call.answer path) state (call :: rest)).2 = some versions → versions.fileSize < 256 ^ 8) :
    (perform path call files).1 = .ok (call.answer path state).1 ∧
      (perform path call files).2.Serves path names (call.answer path state).2 ∧
      ((call.answer path state).2 = state → (perform path call files).2 = files) := by
  have between : ∀ versions, (call.answer path state).2 = some versions → versions.fileSize < 256 ^ 8 := by
    intro versions answered
    have paged := Call.paged_answer valid (fun _ held => serves.paged held) answered
    obtain ⟨last, ran, grown⟩ := grown_inTurn paged path rest
    rw [← answered] at ran
    exact Nat.lt_of_le_of_lt grown.2.2 (addressable last ran)
  obtain ⟨after, comes, kept, unchanged⟩ := serves.command call valid integral between
  rw [perform_eq comes]
  exact ⟨rfl, kept, unchanged⟩

/-- The answers of a run are those of the versions, at each of its commands and all together. -/
theorem Serves.run {calls : List Call} (serves : files.Serves path names state)
    (valid : ∀ call ∈ calls, call.settings.validate = .ok ()) (integral : ∀ call ∈ calls, call.request.Integral)
    (addressable : ∀ versions, (inTurn (Call.answer path) state calls).2 = some versions → versions.fileSize < 256 ^ 8) :
    (inTurn (perform path) files calls).1 = (inTurn (Call.answer path) state calls).1.map .ok ∧
      ∀ earlier call later, calls = earlier ++ call :: later →
        let before := (inTurn (perform path) files earlier).2
        let versions := (inTurn (Call.answer path) state earlier).2
        (perform path call before).1 = .ok (call.answer path versions).1 ∧
          ((call.answer path versions).2 = versions → (perform path call before).2 = before) := by
  induction calls generalizing files state with
  | nil => exact ⟨rfl, fun earlier call later split => by simp at split⟩
  | cons first rest ih =>
    obtain ⟨validFirst, validRest⟩ := List.forall_mem_cons.mp valid
    obtain ⟨integralFirst, integralRest⟩ := List.forall_mem_cons.mp integral
    obtain ⟨answered, kept, unchanged⟩ := serves.performed validFirst integralFirst addressable
    obtain ⟨answers, later⟩ := ih kept validRest integralRest addressable
    refine ⟨?_, fun earlier call last split => ?_⟩
    · rw [inTurn, answered, answers]
      rfl
    · cases earlier with
      | nil =>
        obtain ⟨rfl, -⟩ := List.cons.inj split
        exact ⟨answered, unchanged⟩
      | cons other earlier =>
        obtain ⟨rfl, behind⟩ := List.cons.inj split
        exact later earlier call last behind

/-- Commands on a path where nothing was answer as a map with versions does, and one that fails or makes
no version leaves every file as it was. -/
theorem commands_answer_as_versions (tidy : files.Tidy) (resolved : files.resolve path = .ok (.named names false))
    (short : (names.getLast?.getD "").utf8ByteSize ≤ maxName) (absent : files.entry? names = none) (calls : List Call)
    (valid : ∀ call ∈ calls, call.settings.validate = .ok ()) (integral : ∀ call ∈ calls, call.request.Integral)
    (addressable : ∀ versions, (inTurn (Call.answer path) none calls).2 = some versions → versions.fileSize < 256 ^ 8) :
    (inTurn (perform path) files calls).1 = (inTurn (Call.answer path) none calls).1.map .ok ∧
      ∀ earlier call later, calls = earlier ++ call :: later →
        let before := (inTurn (perform path) files earlier).2
        let versions := (inTurn (Call.answer path) none earlier).2
        (∀ error, (perform path call before).1 = .ok (.error error) → (perform path call before).2 = before) ∧
          ((call.answer path versions).2 = versions → (perform path call before).2 = before) := by
  have serves : files.Serves path names none := ⟨tidy, resolved, short, fun _ => absent, nofun⟩
  obtain ⟨answers, each⟩ := serves.run valid integral addressable
  refine ⟨answers, fun earlier call later split => ?_⟩
  obtain ⟨answered, unchanged⟩ := each earlier call later split
  exact ⟨fun error failed => unchanged (Call.answer_of_error (Except.ok.inj (answered.symm.trans failed))), unchanged⟩

theorem parse?_one : Json.parse? "1" = some (.integer 1) := by
  have taken : Json.Token.take? "1".toList = some (.atom (.number ⟨false, [1], [], none⟩), []) := by decide
  have tokens : Json.Token.ofText? [] "1".toList = some [.atom (.number ⟨false, [1], [], none⟩)] := by
    rw [Json.ofText?_of_take? taken, Json.Token.ofText?]
    rfl
  unfold Json.parse?
  rw [tokens]
  show Json.Tree.value? (.atom _) = _
  rw [Json.Tree.value?]
  rfl

/-- What is answered to five calls of which one fails and one does not apply. -/
theorem answers_to_put_and_get :
    inTurn (Call.answer "p") none
        ([.create, .put "a" "1" .upsert, .get "a" none, .get "a" (some 7), .remove "b"].map (Call.mk { pageSize := 512 }))
      = ([.ok (.ofFields [("path", .string "p"), ("page_size", .nat 512), ("checkpoint", .nat 0)]),
          .ok (Versions.changed "a" "written" true 1024),
          .ok (.ofFields [("key", .string "a"), ("checkpoint", .nat 1024), ("document", .integer 1)]),
          .error (.database (.unknownCheckpoint 7)),
          .ok (Versions.changed "b" "removed" false 1024)],
        some ⟨512, [⟨1024, [("a", .integer 1)]⟩]⟩) := by
  have encoded : (Value.integer 1).encode = [0x31] := by
    rw [Value.encode, Value.text, Value.chars]
    rfl
  have change : Change.ofDocument "a" (some (.integer 1)) = ⟨[0x61], some [0x31]⟩ := by
    rw [Change.ofDocument, Option.map_some, encoded]
    rfl
  have created : Call.answer "p" ⟨{ pageSize := 512 }, .create⟩ none
      = (.ok (.ofFields [("path", .string "p"), ("page_size", .nat 512), ("checkpoint", .nat 0)]), some ⟨512, []⟩) := rfl
  have put : Call.answer "p" ⟨{ pageSize := 512 }, .put "a" "1" .upsert⟩ (some ⟨512, []⟩)
      = (.ok (Versions.changed "a" "written" true 1024), some ⟨512, [⟨1024, [("a", .integer 1)]⟩]⟩) := by
    unfold Call.answer
    dsimp only
    rw [parse?_one]
    dsimp only [whereFound]
    rw [Versions.change, Versions.next, change]
    rfl
  simp only [List.map, inTurn]
  rw [created]
  dsimp only
  rw [put]
  rfl

theorem versions_of_put_and_get :
    let calls := [.create, .put "a" "1" .upsert, .get "a" none, .get "a" (some 7), .remove "b"].map (Call.mk { pageSize := 512 })
    let before := (inTurn (perform "p") {} (calls.take 3)).2
    ({} : FileSystem).Tidy ∧ ({} : FileSystem).resolve "p" = .ok (.named [".", "p"] false) ∧
      ([".", "p"].getLast?.getD "").utf8ByteSize ≤ maxName ∧ FileSystem.entry? {} [".", "p"] = none ∧
      (∀ call ∈ calls, call.settings.validate = .ok ()) ∧ (∀ call ∈ calls, call.request.Integral) ∧
      (∀ versions, (inTurn (Call.answer "p") none calls).2 = some versions → versions.fileSize < 256 ^ 8) ∧
      (inTurn (perform "p") {} calls).1 =
        [.ok (.ok (.ofFields [("path", .string "p"), ("page_size", .nat 512), ("checkpoint", .nat 0)])),
          .ok (.ok (Versions.changed "a" "written" true 1024)),
          .ok (.ok (.ofFields [("key", .string "a"), ("checkpoint", .nat 1024), ("document", .integer 1)])),
          .ok (.error (.database (.unknownCheckpoint 7))),
          .ok (.ok (Versions.changed "b" "removed" false 1024))] ∧
      (perform "p" ⟨{ pageSize := 512 }, .get "a" (some 7)⟩ before).2 = before := by
  intro calls before
  have resolved : ({} : FileSystem).resolve "p" = .ok (.named [".", "p"] false) := resolve_name {} (by decide)
  have valid : ∀ call ∈ calls, call.settings.validate = .ok () := by
    intro call mem
    obtain ⟨request, -, rfl⟩ := List.mem_map.mp mem
    exact (rfl : Settings.validate { pageSize := 512 } = .ok ())
  have integral : ∀ call ∈ calls, call.request.Integral := by
    have put : Request.Integral (.put "a" "1" .upsert) := by
      intro value parsed
      obtain rfl := Option.some.inj (parse?_one.symm.trans parsed)
      exact Value.fold_leaf rfl
    simp only [calls, List.map, List.forall_mem_cons]
    exact ⟨trivial, put, trivial, trivial, trivial, nofun⟩
  have addressable : ∀ versions, (inTurn (Call.answer "p") none calls).2 = some versions → versions.fileSize < 256 ^ 8 := by
    intro versions ran
    rw [answers_to_put_and_get] at ran
    obtain rfl := Option.some.inj ran
    decide
  obtain ⟨answers, each⟩ := commands_answer_as_versions FileSession.tidy_empty resolved (by decide) rfl calls valid integral addressable
  rw [answers_to_put_and_get] at answers
  have reading (state : Option Versions) : (Call.answer "p" ⟨{ pageSize := 512 }, .get "a" (some 7)⟩ state).2 = state := by
    cases state <;> rfl
  have sought := each (calls.take 3) ⟨{ pageSize := 512 }, .get "a" (some 7)⟩ (calls.drop 4) rfl
  exact ⟨FileSession.tidy_empty, resolved, by decide, rfl, valid, integral, addressable, answers, sought.2 (reading _)⟩

end FileSystem
end CheckpointStore
