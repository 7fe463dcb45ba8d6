import CheckpointStore.Handle.Export
import CheckpointStore.Proofs.Crashes
import CheckpointStore.Proofs.Files

/-!
# Databases in files

What opening a database by its path comes to, and what its commits do to the files. As long as the path
leads to the file that was opened, a commit appends to it as to a store in memory. When the path leads
nowhere any more, the append fails, and no checkpoint is reported.
-/

namespace CheckpointStore

namespace FileSystem

variable {files after : FileSystem} {path : String} {names : List String} {identity : Nat}

theorem content_store (files : FileSystem) (identity : Nat) (content : FileContent) :
    (files.store identity content).content identity = content.image := by
  rw [FileSystem.content, stored_store, if_pos rfl]

theorem bytes_content (files : FileSystem) (identity : Nat) : (files.content identity).bytes = (files.stored identity).bytes :=
  FileContent.bytes_image _

theorem append_of_stands (stands : files.Stands path names identity) (bytes : Bytes) :
    files.append path bytes = (.ok (), files.store identity ((files.stored identity).append bytes)) := by
  rw [append, fileForWriting_ok_iff.mpr ⟨names, stands⟩]

theorem content_append (files : FileSystem) (identity : Nat) (bytes : Bytes) :
    (files.store identity ((files.stored identity).append bytes)).content identity
      = files.content identity ++ Image.ofBytes bytes := by
  refine Image.ext ?_
  rw [content_store, FileContent.bytes_image, FileContent.bytes_append, Image.bytes_append, bytes_content,
    Image.bytes_ofBytes]

theorem append_of_absent (resolved : files.resolve path = .ok (.named names false))
    (absent : files.entry? names = none) (bytes : Bytes) :
    ∃ cause, files.append path bytes = (.error cause, files) := by
  unfold append
  cases found : files.fileForWriting path with
  | error cause => exact ⟨cause, rfl⟩
  | ok identity =>
    obtain ⟨others, again, -, file⟩ := fileForWriting_ok_iff.mp found
    rw [resolved] at again
    obtain ⟨rfl, -⟩ := Place.named.inj (Except.ok.inj again)
    rw [absent] at file
    contradiction

end FileSystem

namespace Handle

open FileSystem

variable {handle : Handle} {pending : PendingCheckpoint} {files : FileSystem} {file : OpenFile} {names : List String}
  {identity : Nat}

/-- A commit that does not come to its append asks nothing of its device. -/
theorem commit_of_unattempted (handle : Handle) (idle : ∀ pending, ¬ Attempted handle pending) :
    ∃ committed, ∀ {m : Type → Type} [Monad m] (device : Device m), commit device handle = pure committed := by
  unfold commit
  cases writable : handle.ensureWritable with
  | error error => exact ⟨_, fun device => rfl⟩
  | ok done =>
    dsimp only
    by_cases poisoned : handle.poisoned = true
    · simp only [if_pos poisoned]
      exact ⟨_, fun device => rfl⟩
    · simp only [if_neg poisoned]
      by_cases nothing : handle.staged.changes.isEmpty = true
      · simp only [if_pos nothing]
        exact ⟨_, fun device => rfl⟩
      · simp only [if_neg nothing]
        cases built : PendingCheckpoint.build handle.image.size handle.pageSize handle.current handle.staged.changes with
        | error error => exact ⟨_, fun device => rfl⟩
        | ok pending =>
          refine absurd ⟨ensureWritable_ok_iff.mp writable, Bool.eq_false_iff.mpr poisoned, ?_, built⟩ (idle pending)
          exact fun empty => nothing (by rw [empty]; rfl)

def settle {m : Type → Type} [Monad m] (device : Device m) (handle : Handle) (pending : PendingCheckpoint) :
    Except StorageError Unit → m Committed
  | .error error => do return handle.retreat handle.staged.changes.length error (← device.truncate handle.image.size)
  | .ok () => do
    device.reach .commitAfterTrailer
    return handle.advance pending

theorem commit_of_attempting {m : Type → Type} [Monad m] (device : Device m) (attempted : Attempted handle pending) :
    commit device handle
      = appendCheckpoint device handle.settings.syncOnCommit pending >>= settle device handle pending := by
  obtain ⟨writable, healthy, changed, built⟩ := attempted
  have some : handle.staged.changes.isEmpty = false := List.isEmpty_eq_false_iff.mpr changed
  unfold commit
  simp only [ensureWritable_ok_iff.mpr writable, healthy, some, built, Bool.false_eq_true, if_false]
  rfl

theorem syncIf_file (file : OpenFile) (sync : Bool) (files : FileSystem) :
    (syncIf (FileSystem.device none file) sync).run files = (.ok (.ok ()), files) := by
  cases sync <;> rfl

theorem append_file (stands : files.Stands file.path names identity) (bytes : Bytes) :
    ((FileSystem.device none file).append bytes).run files
      = (.ok (.ok ()), files.store identity ((files.stored identity).append bytes)) := by
  show (Except.ok (reportAs (.append file.path) (files.append file.path bytes).1), (files.append file.path bytes).2) = _
  rw [append_of_stands stands]
  rfl

theorem appendDurably_file (stands : files.Stands file.path names identity) (sync : Bool) (bytes : Bytes) :
    (appendDurably (FileSystem.device none file) sync bytes).run files
      = (.ok (.ok ()), files.store identity ((files.stored identity).append bytes)) := by
  unfold appendDurably
  rw [execution_bind, append_file stands]
  exact syncIf_file file sync _

/-- A cut changes what the open file holds, if anything, and no name. -/
theorem truncate_file (tidy : files.Tidy) (file : OpenFile) (size : Nat) (names : List String) :
    ∃ cut after, ((FileSystem.device none file).truncate size).run files = (.ok cut, after) ∧ files.Evolves after ∧
      after.entry? names = files.entry? names := by
  have got : (get : FileSystem.Execution FileSystem).run files = (.ok files, files) := rfl
  cases resized : files.resizeOpen file size with
  | error cause =>
    refine ⟨.error (.io (.truncate file.path size) cause), files, ?_, .refl tidy, rfl⟩
    unfold FileSystem.device
    dsimp only
    rw [execution_bind, got]
    dsimp only
    rw [resized]
    rfl
  | ok after =>
    refine ⟨.ok (), after, ?_, ?_⟩
    · unfold FileSystem.device
      dsimp only
      rw [execution_bind, got]
      dsimp only
      rw [resized]
      rfl
    · unfold resizeOpen at resized
      split at resized
      · contradiction
      split at resized
      · obtain rfl := Except.ok.inj resized
        exact ⟨evolves_store tidy _ _, rfl⟩
      · contradiction

theorem appendCheckpoint_file (tidy : files.Tidy) (stands : files.Stands file.path names identity) (sync : Bool)
    (pending : PendingCheckpoint) :
    ∃ content, (appendCheckpoint (FileSystem.device none file) sync pending).run files
        = (.ok (.ok ()), files.store identity content) ∧
      content.image = files.content identity ++ Image.ofBytes pending.bytes := by
  have between := evolves_store tidy identity ((files.stored identity).append pending.blocks)
  have still := stands.of_evolves between rfl
  unfold appendCheckpoint
  rw [execution_bind, show ((FileSystem.device none file).reach .commitBeforeBlocks).run files = (.ok (), files) from rfl]
  dsimp only
  rw [execution_bind, appendDurably_file stands]
  dsimp only
  rw [execution_bind, show ((FileSystem.device none file).reach .commitAfterBlocks).run
    (files.store identity ((files.stored identity).append pending.blocks)) = (.ok (), _) from rfl]
  dsimp only
  rw [appendDurably_file still, store_store, stored_store, if_pos rfl]
  refine ⟨_, rfl, Image.ext ?_⟩
  simp [bytes_content, PendingCheckpoint.bytes]

theorem commit_file (file : OpenFile) (tidy : files.Tidy) (stands : files.Stands file.path names identity)
    (attempted : Attempted handle pending) :
    ∃ content, (commit (FileSystem.device none file) handle).run files
        = (.ok (handle.advance pending), files.store identity content) ∧
      content.image = files.content identity ++ Image.ofBytes pending.bytes := by
  obtain ⟨content, appended, image⟩ := appendCheckpoint_file tidy stands handle.settings.syncOnCommit pending
  refine ⟨content, ?_, image⟩
  rw [commit_of_attempting _ attempted, execution_bind, appended]
  rfl

/-- Where its path stands for nothing, nothing is appended, and the commit fails. -/
theorem commit_file_of_absent (file : OpenFile) (tidy : files.Tidy)
    (resolved : files.resolve file.path = .ok (.named names false)) (absent : files.entry? names = none)
    (attempted : Attempted handle pending) :
    ∃ error cut after, (commit (FileSystem.device none file) handle).run files
        = (.ok (handle.retreat handle.staged.changes.length error cut), after) ∧
      files.Evolves after ∧ after.entry? names = none := by
  obtain ⟨cause, failed⟩ := append_of_absent resolved absent pending.blocks
  have missed : ((FileSystem.device none file).append pending.blocks).run files
      = (.ok (.error (.io (.append file.path) cause)), files) := by
    show (Except.ok (reportAs (.append file.path) (files.append file.path pending.blocks).1), (files.append file.path pending.blocks).2) = _
    rw [failed]
    rfl
  have stopped : (appendCheckpoint (FileSystem.device none file) handle.settings.syncOnCommit pending).run files
      = (.ok (.error (.io (.append file.path) cause)), files) := by
    unfold appendCheckpoint appendDurably
    rw [execution_bind, show ((FileSystem.device none file).reach .commitBeforeBlocks).run files = (.ok (), files) from rfl]
    dsimp only
    rw [execution_bind, execution_bind, missed]
    rfl
  obtain ⟨cut, after, truncated, evolves, same⟩ : ∃ cut after,
      ((FileSystem.device none file).truncate handle.image.size).run files = (.ok cut, after) ∧
        files.Evolves after ∧ after.entry? names = files.entry? names :=
    truncate_file tidy file handle.image.size names
  refine ⟨.io (.append file.path) cause, cut, after, ?_, evolves, same.trans absent⟩
  rw [commit_of_attempting _ attempted, execution_bind, stopped]
  dsimp only [settle]
  rw [execution_bind, truncated]
  rfl

/-- A commit that appended nothing and retreats is one that was torn before its first byte. -/
theorem retreat_outcome (attempted : Attempted handle pending) (blocks : Nat) (error : StorageError)
    (cut : Except StorageError Unit) {store : MemoryStore} (image : store.image = handle.image) :
    CommitOutcome handle store (handle.retreat blocks error cut) store := by
  have same : store.image ++ Image.ofBytes [] = store.image := by
    refine Image.ext ?_
    rw [Image.bytes_append, Image.bytes_ofBytes, List.append_nil]
  unfold retreat
  cases cut with
  | ok done =>
    refine .cut _ attempted (List.nil_append _).symm ?_
    rw [same, image]
    refine Image.ext ?_
    rw [Image.bytes_take, List.take_of_length_le (by rw [Image.length_bytes])]
  | error failure => exact .stuck _ attempted (List.nil_append _).symm same.symm

/-! ### Opening -/

section Opening

variable {mode : OpenMode} {settings : Settings} {path : String}

theorem readAll_file (stands : files.Stands file.path names identity) :
    ((FileSystem.device none file).readAll).run files = (.ok (.ok (files.content identity)), files) := by
  have read : files.read file.path = .ok (files.content identity) := by
    rw [FileSystem.read, stat_file_iff.mpr ⟨names, stands⟩]
  show (Except.ok (reportAs (.read file.path) (files.read file.path)), files) = _
  rw [read]
  rfl

/-- What is read is what the file holds afterwards; nothing is written to a file that has bytes. -/
theorem readImage_file (tidy : files.Tidy) (stands : files.Stands file.path names identity) (mode : OpenMode)
    (settings : Settings) :
    ∃ after, (readImage (FileSystem.device none file) mode settings).run files
        = (.ok (.ok (after.content identity)), after) ∧
      files.Evolves after ∧ after.Stands file.path names identity ∧ (0 < (files.content identity).size → after = files) ∧
      ((files.content identity).size = 0 → mode = .createAndWrite → after.content identity = newImage settings) := by
  unfold readImage
  rw [execution_bind, readAll_file stands]
  dsimp only
  -- an empty file is given a header where it may be created, and is read again
  split
  · rename_i fresh
    obtain ⟨empty, -⟩ := Bool.and_eq_true_iff.mp fresh
    have nothing : (files.content identity).bytes = [] := by
      rw [Image.isEmpty, beq_iff_eq] at empty
      exact List.length_eq_zero_iff.mp ((files.content identity).length_bytes.trans empty)
    have evolves := evolves_store tidy identity ((files.stored identity).append (newImage settings).bytes)
    have written : (files.store identity ((files.stored identity).append (newImage settings).bytes)).content identity
        = newImage settings := by
      rw [content_append]
      refine Image.ext ?_
      rw [Image.bytes_append, nothing, Image.bytes_ofBytes, List.nil_append]
    refine ⟨_, ?_, evolves, stands.of_evolves evolves rfl, fun filled => ?_, fun _ _ => written⟩
    · rw [execution_bind, append_file stands]
      dsimp only
      rw [execution_bind, written]
      rfl
    · rw [Image.isEmpty, beq_iff_eq] at empty
      omega
  · rename_i kept
    refine ⟨files, rfl, .refl tidy, stands, fun _ => rfl, fun empty created => absurd ?_ kept⟩
    rw [Image.isEmpty, empty, created]
    rfl

theorem load_file (file : OpenFile) (mode : OpenMode) (tidy : files.Tidy) (stands : files.Stands file.path names identity)
    (valid : settings.validate = .ok ()) :
    ∃ after, files.Evolves after ∧ after.Stands file.path names identity ∧
      (0 < (files.content identity).size → after = files) ∧
      ((files.content identity).size = 0 → mode = .createAndWrite → after.content identity = newImage settings) ∧
      ∃ events, (load (FileSystem.device none file) mode settings).run files =
        (.ok ⟨((ofImage (after.content identity) mode settings file.path).map Prod.fst).mapError .storage, events⟩, after) := by
  obtain ⟨after, read, evolves, still, kept, fresh⟩ := readImage_file tidy stands mode settings
  refine ⟨after, evolves, still, kept, fresh, ?_⟩
  unfold load
  simp only [valid]
  rw [execution_bind, read]
  dsimp only
  rw [show (FileSystem.device none file).location = file.path from rfl]
  cases ofImage (after.content identity) mode settings file.path with
  | error error => exact ⟨_, rfl⟩
  | ok pair => exact ⟨_, rfl⟩

theorem openFile_spec (tidy : files.Tidy) {create : Bool} {after : FileSystem}
    (opened : files.openFile path true create = (.ok file, after)) :
    ∃ names identity, file = ⟨path, .file identity, true⟩ ∧ after.Stands path names identity ∧ files.Evolves after := by
  unfold openFile at opened
  cases create with
  | true =>
    simp only [Bool.and_self, if_true] at opened
    cases created : files.fileForCreation path with
    | error cause => simp [created, Except.map] at opened
    | ok pair =>
      obtain ⟨identity, made⟩ := pair
      simp only [created, Except.map, Prod.mk.injEq, Except.ok.injEq] at opened
      obtain ⟨rfl, rfl⟩ := opened
      obtain ⟨names, -, stands, evolves, -⟩ := fileForCreation_spec tidy created
      exact ⟨names, identity, rfl, stands, evolves⟩
  | false =>
    simp only [Bool.and_false, Bool.false_eq_true, if_false, if_true] at opened
    cases found : files.fileForWriting path with
    | error cause => simp [found, Except.map] at opened
    | ok identity =>
      simp only [found, Except.map, Prod.mk.injEq, Except.ok.injEq] at opened
      obtain ⟨rfl, rfl⟩ := opened
      obtain ⟨names, stands⟩ := fileForWriting_ok_iff.mp found
      exact ⟨names, identity, rfl, stands, .refl tidy⟩

theorem openFile_of_stands (stands : files.Stands path names identity) (writable create : Bool) :
    files.openFile path writable create = (.ok ⟨path, .file identity, writable⟩, files) := by
  have made : files.fileForCreation path = .ok (identity, files) := by
    unfold fileForCreation
    simp only [stands.resolved, Bool.false_eq_true, if_false, find_ok_iff.mpr ⟨stands.short, stands.file⟩]
  unfold openFile
  cases writable with
  | true =>
    cases create with
    | true => simp only [Bool.and_self, if_true, made, Except.map]
    | false =>
      simp only [Bool.and_false, Bool.false_eq_true, if_false, if_true, fileForWriting_ok_iff.mpr ⟨names, stands⟩, Except.map]
  | false => simp only [Bool.false_and, Bool.false_eq_true, if_false, stat_file_iff.mpr ⟨names, stands⟩, Except.map]

theorem openDevice_run (path : String) (writable create : Bool) (files : FileSystem) :
    ((FileSystem.host none).openDevice path writable create).run files
      = (.ok ((files.openFile path writable create).1.map (FileSystem.device none)),
        (files.openFile path writable create).2) := rfl

/-- What is opened for writing by its path is grounded in the file that the path then stands for. -/
theorem of_openPath (tidy : files.Tidy) (writable : mode.isWritable = true) {database : OpenDatabase FileSystem.Execution}
    {events : List Event} {after : FileSystem}
    (opened : (openPath (FileSystem.host none) path mode settings).run files = (.ok ⟨.ok database, events⟩, after)) :
    ∃ names identity, database.device = FileSystem.device none ⟨path, .file identity, true⟩ ∧
      after.Stands path names identity ∧ files.Evolves after ∧ database.handle.Grounded ∧
      database.handle.image = after.content identity ∧ database.handle.staged = KeyMap.empty := by
  unfold openPath at opened
  rw [execution_bind, openDevice_run, writable] at opened
  cases found : files.openFile path true (mode == .createAndWrite) with
  | mk result between =>
    rw [found] at opened
    cases result with
    | error error => cases opened
    | ok file =>
      obtain ⟨names, identity, rfl, stands, evolves⟩ := openFile_spec tidy found
      dsimp only [Except.map] at opened
      rw [execution_bind] at opened
      cases valid : settings.validate with
      | error error =>
        unfold load at opened
        simp only [valid] at opened
        cases opened
      | ok done =>
        obtain ⟨last, later, still, -, -, reports, loaded⟩ :=
          load_file ⟨path, .file identity, true⟩ mode evolves.tidy stands valid
        rw [loaded] at opened
        cases made : ofImage (last.content identity) mode settings path with
        | error error =>
          rw [made] at opened
          cases opened
        | ok pair =>
          rw [made] at opened
          obtain ⟨grounded, image, again⟩ := grounded_of_ofImage made
          cases opened
          exact ⟨names, identity, rfl, still, evolves.trans later, grounded, image, congrArg Handle.staged again⟩

theorem openPath_of_stands (tidy : files.Tidy) (stands : files.Stands path names identity)
    (filled : 0 < (files.content identity).size) (mode : OpenMode) (valid : settings.validate = .ok ()) :
    ∃ events, (openPath (FileSystem.host none) path mode settings).run files
      = (.ok ⟨((ofImage (files.content identity) mode settings path).mapError .storage).map fun opened =>
          ⟨FileSystem.device none ⟨path, .file identity, mode.isWritable⟩, opened.1⟩, events⟩, files) := by
  obtain ⟨after, -, -, kept, -, events, loaded⟩ := load_file ⟨path, .file identity, mode.isWritable⟩ mode tidy stands valid
  obtain rfl := kept filled
  refine ⟨events, ?_⟩
  unfold openPath
  rw [execution_bind, openDevice_run, openFile_of_stands stands]
  dsimp only [Except.map]
  rw [execution_bind, loaded]
  cases ofImage (after.content identity) mode settings path <;> rfl

theorem openPath_of_grounded (tidy : files.Tidy) (stands : files.Stands path names identity) (grounded : handle.Grounded)
    (image : files.content identity = handle.image) (mode : OpenMode) (valid : settings.validate = .ok ()) :
    ∃ events, (openPath (FileSystem.host none) path mode settings).run files
      = (.ok ⟨.ok ⟨FileSystem.device none ⟨path, .file identity, mode.isWritable⟩, handle.reopened mode settings path⟩,
          events⟩, files) := by
  have bounds := grounded.pageSize_bounds
  obtain ⟨reports, made⟩ := ofImage_of_grounded grounded mode settings path
  obtain ⟨events, opened⟩ := openPath_of_stands tidy stands (by rw [image]; omega) mode valid
  rw [image, made] at opened
  exact ⟨events, opened⟩

/-- A path that stands for nothing is opened as a new database where the mode says so. -/
theorem openPath_of_absent (tidy : files.Tidy) (resolved : files.resolve path = .ok (.named names false))
    (short : (names.getLast?.getD "").utf8ByteSize ≤ maxName) (absent : files.entry? names = none)
    (valid : settings.validate = .ok ()) :
    ∃ identity events after, (openPath (FileSystem.host none) path .createAndWrite settings).run files
        = (.ok ⟨.ok ⟨FileSystem.device none ⟨path, .file identity, true⟩,
            (new settings).reopened .createAndWrite settings path⟩, events⟩, after) ∧
      files.Evolves after ∧ after.Stands path names identity ∧ after.content identity = newImage settings := by
  have created : files.fileForCreation path = .ok (files.addFile names) := by
    unfold fileForCreation
    simp only [resolved, Bool.false_eq_true, if_false, find_ok_iff.mpr ⟨short, absent⟩]
  have empty : ((files.addFile names).2.content (files.addFile names).1).size = 0 := by
    show (FileSystem.content (FileSystem.store _ files.fresh _) files.fresh).size = 0
    rw [content_store]
    rfl
  have opened : files.openFile path true true = (.ok ⟨path, .file (files.addFile names).1, true⟩, (files.addFile names).2) := by
    unfold openFile
    simp only [Bool.and_self, if_true, created, Except.map]
  generalize files.addFile names = made at created empty opened
  obtain ⟨identity, between⟩ := made
  obtain ⟨others, again, stands, evolves, -⟩ := fileForCreation_spec tidy created
  rw [resolved] at again
  obtain ⟨rfl, -⟩ := Place.named.inj (Except.ok.inj again)
  obtain ⟨after, later, still, -, written, events, loaded⟩ :=
    load_file ⟨path, .file identity, true⟩ .createAndWrite evolves.tidy stands valid
  have image := written empty rfl
  obtain ⟨reports, new⟩ := ofImage_of_grounded (grounded_new valid) .createAndWrite settings path
  rw [image, show newImage settings = (Handle.new settings).image from rfl, new] at loaded
  refine ⟨identity, events, after, ?_, evolves.trans later, still, image⟩
  unfold openPath
  rw [execution_bind, openDevice_run, show OpenMode.createAndWrite.isWritable = true from rfl, beq_self_eq_true, opened]
  dsimp only [Except.map]
  rw [execution_bind, loaded]
  rfl

end Opening

end Handle
end CheckpointStore
