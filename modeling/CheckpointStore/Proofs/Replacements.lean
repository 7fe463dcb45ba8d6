import CheckpointStore.Handle.Export
import CheckpointStore.Proofs.Files

/-!
# Files that are replaced while steps fail

Up to the rename nothing touches the file at the target, whichever step fails and however much of the
sibling was written, and from the rename on it holds the new bytes. So it is never torn. But the directory
is made durable behind the rename: where that fails, a failure is told of a file that has been replaced.
-/

namespace CheckpointStore.FileSystem

variable {files a b c : FileSystem} {path : String} {names own : List String} {identity : Nat} {bytes : Bytes}

/-- The content of the file at a path, if there is one. -/
def contentAt? (files : FileSystem) (path : String) : Option Image := (files.read path).toOption

theorem contentAt?_eq_some_iff {image : Image} :
    files.contentAt? path = some image ↔ ∃ names identity, files.Stands path names identity ∧ files.content identity = image := by
  unfold contentAt? read
  constructor
  · intro found
    cases there : files.stat path with
    | error cause =>
      rw [there] at found
      contradiction
    | ok entry =>
      rw [there] at found
      cases entry with
      | directory => contradiction
      | file identity =>
        obtain ⟨names, stands⟩ := stat_file_iff.mp there
        exact ⟨names, identity, stands, Option.some.inj found⟩
  · rintro ⟨names, identity, stands, rfl⟩
    rw [stat_file_iff.mpr ⟨names, stands⟩]
    rfl

/-! ### A file and its sibling -/

theorem ends_of_walk {here parts : List String} {slash : Bool} (walked : files.walk here parts = .ok (.named names slash)) :
    ∃ name, Path.Ends parts name ∧ names.getLast? = some name := by
  induction parts generalizing here with
  | nil => exact nomatch walked
  | cons part rest ih =>
    have onward {next : List String} (later : files.walk next rest = .ok (.named names slash)) :
        ∃ name, Path.Ends (part :: rest) name ∧ names.getLast? = some name := by
      obtain ⟨name, ⟨⟨front, blanks, split, blank⟩, plain⟩, last⟩ := ih later
      exact ⟨name, ⟨⟨part :: front, blanks, congrArg (part :: ·) split, blank⟩, plain⟩, last⟩
    rw [walk] at walked
    split at walked
    · exact onward walked
    · rename_i named
      split at walked
      · exact onward walked
      · rename_i down
        split at walked
        · rename_i blank
          obtain ⟨rfl, -⟩ := Place.named.inj (Except.ok.inj walked)
          refine ⟨part, ⟨⟨[], rest, rfl, fun other mem => ?_⟩, fun same => named (.inl same), fun same => named (.inr same), down⟩,
            List.getLast?_concat⟩
          exact eq_of_beq (List.all_eq_true.mp blank other mem)
        · split at walked
          · contradiction
          · exact onward walked
          · contradiction
          · contradiction

theorem ends_of_resolve {slash : Bool} (resolved : files.resolve path = .ok (.named names slash)) :
    ∃ name, Path.Ends (path.splitOn "/") name ∧ names.getLast? = some name := by
  unfold resolve at resolved
  split at resolved
  · contradiction
  split at resolved
  · contradiction
  split at resolved
  · contradiction
  split at resolved
  · rename_i parts cut
    obtain ⟨name, ⟨⟨front, blanks, split, blank⟩, plain⟩, last⟩ := ends_of_walk resolved
    exact ⟨name, ⟨⟨"" :: front, blanks, cut.trans (congrArg ("" :: ·) split), blank⟩, plain⟩, last⟩
  · exact ends_of_walk resolved

/-- A path and that of its sibling lead to different names. -/
theorem temporary_apart {slash : Bool} (resolved : files.resolve path = .ok (.named names slash)) (other : Bool) :
    files.resolve (Path.temporary path) ≠ .ok (.named names other) := by
  intro sibling
  obtain ⟨name, ends, last⟩ := ends_of_resolve resolved
  obtain ⟨again, endsAgain, lastAgain⟩ := ends_of_resolve sibling
  obtain rfl := Option.some.inj (last.symm.trans lastAgain)
  have same := endsAgain.eq_last (Path.temporary_of_ends ends) (by simp)
  have length := congrArg String.length same
  rw [String.length_append] at length
  have four : ".tmp".length = 4 := rfl
  omega

/-! ### Steps that leave the target alone -/

/-- Directories stay, and no two names come to stand for one file. -/
structure Follows (a b : FileSystem) : Prop where
  directories : SameDirectories a b
  tidy : b.Tidy

theorem Evolves.follows (evolves : a.Evolves b) : a.Follows b := ⟨evolves.directories, evolves.tidy⟩

theorem Follows.trans (first : a.Follows b) (second : b.Follows c) : a.Follows c :=
  ⟨fun path => (first.directories path).trans (second.directories path), second.tidy⟩

theorem Follows.resolve (follows : a.Follows b) {place : Place} : b.resolve path = .ok place ↔ a.resolve path = .ok place :=
  ⟨resolve_of_same fun other => (follows.directories other).symm, resolve_of_same follows.directories⟩

/-- What the path leads to is left alone. -/
structure Spares (path : String) (a b : FileSystem) : Prop where
  follows : a.Follows b
  keeps : ∀ names, a.resolve path = .ok (.named names false) → Keeps names a b

namespace Spares

theorem trans (first : Spares path a b) (second : Spares path b c) : Spares path a c :=
  ⟨first.follows.trans second.follows,
    fun names resolved => (first.keeps names resolved).trans (second.keeps names (first.follows.resolve.mpr resolved))⟩

theorem contentAt? (spares : Spares path a b) : b.contentAt? path = a.contentAt? path := by
  refine Option.ext fun image => ?_
  rw [contentAt?_eq_some_iff, contentAt?_eq_some_iff]
  constructor
  · rintro ⟨names, identity, stands, rfl⟩
    have resolved := spares.follows.resolve.mp stands.resolved
    have kept := spares.keeps names resolved
    have file := kept.entry.symm.trans stands.file
    refine ⟨names, identity, ⟨resolved, stands.short, file⟩, ?_⟩
    rw [content, content, kept.stored identity file]
  · rintro ⟨names, identity, stands, rfl⟩
    have kept := spares.keeps names stands.resolved
    refine ⟨names, identity, ⟨spares.follows.resolve.mpr stands.resolved, stands.short, kept.entry.trans stands.file⟩, ?_⟩
    rw [content, content, kept.stored identity stands.file]

theorem created {opened : FileSystem} (tidy : files.Tidy)
    (created : files.fileForCreation (Path.temporary path) = .ok (identity, opened)) : Spares path files opened := by
  obtain ⟨own, resolved, -, evolves, elsewhere⟩ := fileForCreation_spec tidy created
  refine ⟨evolves.follows, fun names target => elsewhere names ?_⟩
  rintro rfl
  exact temporary_apart target false resolved

theorem written (tidy : files.Tidy) (stands : files.Stands (Path.temporary path) own identity) (image : Image) :
    Spares path files (files.setContent identity image) := by
  refine ⟨(evolves_store tidy identity _).follows, fun names target => keeps_store (fun found => ?_) _⟩
  obtain rfl := tidy.apart names own identity found stands.file
  exact temporary_apart target false stands.resolved

theorem unlinked (tidy : files.Tidy) : Spares path files (files.unlinked (Path.temporary path)) :=
  ⟨(evolves_unlinked tidy _).follows, fun _ target => keeps_unlinked (temporary_apart target)⟩

end Spares

/-- What was at the source is at the target. -/
theorem contentAt?_rename {source target : String} {renamed : FileSystem} (tidy : files.Tidy)
    (stands : files.Stands source own identity) (done : files.rename source target = .ok renamed) :
    renamed.contentAt? target = some (files.content identity) := by
  have evolves := evolves_rename tidy done
  obtain ⟨old, new, slash, other, here, there, file, leads, rfl⟩ := rename_spec done
  rw [stands.resolved] at here
  obtain ⟨rfl, -⟩ := Place.named.inj (Except.ok.inj here)
  obtain rfl := Entry.file.inj (Option.some.inj (stands.file.symm.trans file))
  have removed := evolves_removed tidy (show files.entry? own ≠ some .directory by rw [file]; exact nofun)
  refine contentAt?_eq_some_iff.mpr ⟨new, identity, ⟨evolves.resolve.mpr there, leads.short, ?_⟩, rfl⟩
  exact entry?_setEntry_self (fun directory => leads.plain ((removed.directories new).mpr directory)) _

/-! ### Steps with outcomes -/

section Steps

variable {α β : Type} {files : FileSystem} {done : α → FileSystem → Prop} {failed : FileSystem → Prop}

/-- What holds when a step succeeds, and what holds when it fails. -/
def Comes (step : Step α) (files : FileSystem) (done : α → FileSystem → Prop) (failed : FileSystem → Prop) : Prop :=
  match step.run files with
  | (.ok result, after) => done result after
  | (.error _, after) => failed after

theorem Comes.bind {first : Step α} {next : α → Step β} {finished : β → FileSystem → Prop}
    (comes : Comes first files done failed) (later : ∀ result after, done result after → Comes (next result) after finished failed) :
    Comes (first >>= next) files finished failed := by
  unfold Comes at comes ⊢
  rw [execution_bind]
  cases ran : first.run files with
  | mk result after =>
    rw [ran] at comes
    cases result with
    | ok value => exact later value after comes
    | error cause => exact comes

/-- The files once the outcome that is planned next is taken off. -/
def ticked (files : FileSystem) : FileSystem := { files with plan := (MemoryStore.nextOutcome files.plan).2 }

theorem spares_ticked (tidy : files.Tidy) : Spares path files files.ticked :=
  ⟨⟨fun _ => Iff.rfl, ⟨tidy.given, tidy.apart⟩⟩, fun _ _ => ⟨rfl, fun _ _ => rfl⟩⟩

theorem run_nextStep_eq (files : FileSystem) :
    (nextStep : Step Outcome).run files = (.ok (MemoryStore.nextOutcome files.plan).1, files.ticked) := rfl

theorem comes_planned {step : FileSystem → Except IoCause (α × FileSystem)} (refused : failed files.ticked)
    (stepped : ∀ result after, step files.ticked = .ok (result, after) → done result after) :
    Comes (planned step) files done failed := by
  unfold Comes planned
  rw [execution_bind, run_nextStep_eq]
  dsimp only
  cases (MemoryStore.nextOutcome files.plan).1 with
  | succeed =>
    dsimp only
    rw [execution_bind, show (get : Step FileSystem).run files.ticked = (.ok files.ticked, files.ticked) from rfl]
    dsimp only
    cases came : step files.ticked with
    | error cause => exact refused
    | ok pair => exact stepped pair.1 pair.2 came
  | fail => exact refused
  | short count => exact refused

/-- However a write ends, its file holds a beginning of the bytes, and all of them when it succeeds. -/
theorem comes_writeContent {done : Unit → FileSystem → Prop} (identity : Nat) (bytes : Bytes)
    (torn : ∀ count, failed (files.ticked.setContent identity (.ofBytes (bytes.take count))))
    (whole : done () (files.ticked.setContent identity (.ofBytes bytes))) :
    Comes (writeContent identity bytes) files done failed := by
  unfold Comes writeContent
  rw [execution_bind, run_nextStep_eq]
  dsimp only
  cases (MemoryStore.nextOutcome files.plan).1 with
  | succeed =>
    show done () (files.ticked.setContent identity (.ofBytes (bytes.take bytes.length)))
    rw [List.take_length]
    exact whole
  | fail => exact torn 0
  | short count => exact torn (min count bytes.length)

end Steps

/-! ### Replacing a file -/

/-- The steps up to the rename, in which the bytes come to stand at the target. -/
def renameSteps (path : String) (bytes : Bytes) : Step Unit := do
  let identity ← createEmpty (Path.temporary path)
  writeContent identity bytes
  makeDurable
  planned fun files => (files.rename (Path.temporary path) path).map fun files => ((), files)

theorem replaceSteps_eq (path : String) (bytes : Bytes) :
    replaceSteps path bytes = (renameSteps path bytes >>= fun _ => makeParentDurable path) := by
  unfold replaceSteps renameSteps
  simp only [bind_assoc]

/-- The sibling stands for a file, and the target has been left alone. -/
structure Prepared (path : String) (identity : Nat) (a b : FileSystem) : Prop where
  spares : Spares path a b
  stands : ∃ own, b.Stands (Path.temporary path) own identity

namespace Prepared

theorem tidy (prepared : Prepared path identity a b) : b.Tidy := prepared.spares.follows.tidy

theorem ticked (prepared : Prepared path identity a b) : Prepared path identity a b.ticked := by
  obtain ⟨own, stands⟩ := prepared.stands
  have tick : Spares path b b.ticked := spares_ticked prepared.tidy
  exact ⟨prepared.spares.trans tick, own, tick.follows.resolve.mpr stands.resolved, stands.short, stands.file⟩

theorem written (prepared : Prepared path identity a b) (image : Image) :
    Prepared path identity a (b.setContent identity image) := by
  obtain ⟨own, stands⟩ := prepared.stands
  have spares := Spares.written prepared.tidy stands image
  exact ⟨prepared.spares.trans spares, own, spares.follows.resolve.mpr stands.resolved, stands.short, stands.file⟩

end Prepared

theorem content_setContent (files : FileSystem) (identity : Nat) (image : Image) :
    (files.setContent identity image).content identity = image := by
  refine Image.ext ?_
  rw [content, setContent, stored_store, if_pos rfl, FileContent.bytes_image, FileContent.bytes_ofImage]

theorem comes_createEmpty (tidy : files.Tidy) (path : String) :
    Comes (createEmpty (Path.temporary path)) files (fun identity after => Prepared path identity files after)
      (Spares path files) := by
  have tick : Spares path files files.ticked := spares_ticked tidy
  refine comes_planned tick fun identity after came => ?_
  cases created : files.ticked.fileForCreation (Path.temporary path) with
  | error cause =>
    rw [created] at came
    contradiction
  | ok pair =>
    rw [created] at came
    obtain ⟨rfl, rfl⟩ := Prod.mk.inj (Except.ok.inj came)
    obtain ⟨own, -, stands, -, -⟩ := fileForCreation_spec tick.follows.tidy created
    have opened : Prepared path pair.1 files pair.2 := ⟨tick.trans (Spares.created tick.follows.tidy created), own, stands⟩
    exact opened.written .empty

/-- Up to the rename the target is left alone, and the rename puts the bytes there. -/
theorem comes_renameSteps (tidy : files.Tidy) (path : String) (bytes : Bytes) :
    Comes (renameSteps path bytes) files
      (fun _ after => files.Follows after ∧ after.contentAt? path = some (.ofBytes bytes)) (Spares path files) := by
  refine (comes_createEmpty tidy path).bind fun identity opened prepared => ?_
  have filled : Comes (writeContent identity bytes) opened
      (fun _ after => Prepared path identity files after ∧ after.content identity = .ofBytes bytes) (Spares path files) :=
    comes_writeContent identity bytes (fun count => (prepared.ticked.written _).spares)
      ⟨prepared.ticked.written _, content_setContent _ _ _⟩
  refine filled.bind fun _ full ⟨held, content⟩ => ?_
  have durable : Comes makeDurable full
      (fun _ after => Prepared path identity files after ∧ after.content identity = .ofBytes bytes) (Spares path files) := by
    refine comes_planned held.ticked.spares fun _ after came => ?_
    obtain ⟨-, rfl⟩ := Prod.mk.inj (Except.ok.inj came)
    exact ⟨held.ticked, content⟩
  refine durable.bind fun _ safe ⟨kept, content⟩ => ?_
  refine comes_planned kept.ticked.spares fun _ after came => ?_
  cases renamed : safe.ticked.rename (Path.temporary path) path with
  | error cause =>
    rw [renamed] at came
    contradiction
  | ok moved =>
    rw [renamed] at came
    obtain ⟨-, rfl⟩ := Prod.mk.inj (Except.ok.inj came)
    obtain ⟨own, stands⟩ := kept.ticked.stands
    have put := contentAt?_rename kept.ticked.tidy stands renamed
    exact ⟨kept.ticked.spares.follows.trans (evolves_rename kept.ticked.tidy renamed).follows,
      put.trans (congrArg some content)⟩

/-- The steps up to the rename come off, as far as files and plan allow. -/
def Renames (files : FileSystem) (path : String) (bytes : Bytes) : Prop :=
  ∃ after, (renameSteps path bytes).run files = (.ok (), after)

theorem comes_makeParentDurable {files : FileSystem} (tidy : files.Tidy) (path : String) :
    Comes (makeParentDurable path) files (fun _ after => Spares path files after)
      (fun after => Spares path files after ∧ (Path.ofString path).parent.text.isEmpty = false) := by
  unfold makeParentDurable
  dsimp only
  split
  · exact ⟨⟨fun _ => Iff.rfl, tidy⟩, fun _ _ => .refl _ _⟩
  · rename_i named
    refine comes_planned ⟨spares_ticked tidy, Bool.eq_false_iff.mpr named⟩ fun _ after came => ?_
    cases there : files.ticked.stat (Path.ofString path).parent.text with
    | error cause =>
      rw [there] at came
      contradiction
    | ok entry =>
      rw [there] at came
      obtain ⟨-, rfl⟩ := Prod.mk.inj (Except.ok.inj came)
      exact spares_ticked tidy

/-- Everything that replacing a file comes to, whichever steps fail. -/
inductive Settled (files : FileSystem) (path : String) (bytes : Bytes) : Except IoCause Unit → FileSystem → Prop where
  | undone {cause : IoCause} {after : FileSystem} (short : ¬ Renames files path bytes) (spares : Spares path files after) :
      Settled files path bytes (.error cause) after
  | done {after : FileSystem} (renames : Renames files path bytes) (content : after.contentAt? path = some (.ofBytes bytes)) :
      Settled files path bytes (.ok ()) after
  | unsure {cause : IoCause} {after : FileSystem} (renames : Renames files path bytes)
      (parent : (Path.ofString path).parent.text.isEmpty = false) (content : after.contentAt? path = some (.ofBytes bytes)) :
      Settled files path bytes (.error cause) after

theorem settled (tidy : files.Tidy) (path : String) (bytes : Bytes) :
    Settled files path bytes (replace path bytes files).1 (replace path bytes files).2 := by
  have reached := comes_renameSteps tidy path bytes
  rw [replace_run, replaceSteps_eq, execution_bind]
  unfold Comes at reached
  cases ran : (renameSteps path bytes).run files with
  | mk result between =>
    rw [ran] at reached
    cases result with
    | error cause =>
      refine .undone ?_ (reached.trans (Spares.unlinked reached.follows.tidy))
      rintro ⟨after, renamed⟩
      exact nomatch ran.symm.trans renamed
    | ok moved =>
      obtain ⟨follows, content⟩ := reached
      have durable := comes_makeParentDurable follows.tidy path
      unfold Comes at durable
      dsimp only
      cases last : (makeParentDurable path).run between with
      | mk outcome after =>
        rw [last] at durable
        cases outcome with
        | ok done => exact .done ⟨between, ran⟩ (durable.contentAt?.trans content)
        | error cause =>
          obtain ⟨spares, parent⟩ := durable
          have swept := spares.trans (Spares.unlinked spares.follows.tidy)
          exact .unsure ⟨between, ran⟩ parent (swept.contentAt?.trans content)

/-- The export comes to what replacing its target with the compacted bytes comes to. -/
theorem run_exportTo (handle : Handle) (path : String) (files : FileSystem) :
    (handle.exportTo (host none) path).run files =
      match handle.compacted with
      | .error error => (.ok (handle.exportFailure path error), files)
      | .ok image =>
        match (replace path image files).1 with
        | .error cause => (.ok (handle.exportFailure path (.io (.replace path) cause)), (replace path image files).2)
        | .ok () =>
          (.ok ⟨.ok (), [.exportBegin handle.location path, .exportComplete path handle.documents.length image.length]⟩,
            (replace path image files).2) := by
  unfold Handle.exportTo
  cases handle.compacted with
  | error error => rfl
  | ok image =>
    have replacing : ((host none).replaceFile path image).run files
        = (.ok (reportAs (.replace path) (replace path image files).1), (replace path image files).2) := rfl
    dsimp only
    rw [execution_bind, show ((host none).reach .exportBeforeWrite).run files = (.ok (), files) from rfl]
    dsimp only
    rw [execution_bind, replacing]
    cases (replace path image files).1 <;> rfl

namespace Settled

variable {result : Except IoCause Unit} {after : FileSystem}

theorem content_of_done (settled : Settled files path bytes (.ok ()) after) :
    after.contentAt? path = some (.ofBytes bytes) := by
  cases settled with
  | done renames content => exact content

theorem unchanged_iff {cause : IoCause} (settled : Settled files path bytes (.error cause) after) :
    after.contentAt? path = files.contentAt? path ↔
      ¬ Renames files path bytes ∨ files.contentAt? path = some (.ofBytes bytes) := by
  cases settled with
  | undone short spares => exact ⟨fun _ => .inl short, fun _ => spares.contentAt?⟩
  | unsure renames parent content =>
    rw [content, eq_comm]
    exact ⟨.inr, fun either => either.resolve_left (not_not_intro renames)⟩

theorem old_or_new (settled : Settled files path bytes result after) :
    after.contentAt? path = files.contentAt? path ∨ after.contentAt? path = some (.ofBytes bytes) := by
  cases settled with
  | undone short spares => exact .inl spares.contentAt?
  | done renames content => exact .inr content
  | unsure renames parent content => exact .inr content

theorem undone_of_plain {cause : IoCause} (settled : Settled files path bytes (.error cause) after)
    (plain : (Path.ofString path).parent.text.isEmpty = true) : ¬ Renames files path bytes := by
  cases settled with
  | undone short spares => exact short
  | unsure renames parent content => exact absurd (plain.symm.trans parent) nofun

end Settled

/-- Whichever steps fail, the target holds what it held or the new bytes, and when success is told it
holds those. When a failure is told it holds what it held unless the rename had come off, which takes a
target with a directory in its path, and had put other bytes there. It is the same with an export. -/
theorem failed_replacement_undone_iff (tidy : files.Tidy) (path : String) :
    (∀ bytes,
      ((replace path bytes files).2.contentAt? path = files.contentAt? path ∨
          (replace path bytes files).2.contentAt? path = some (.ofBytes bytes)) ∧
        ((replace path bytes files).1 = .ok () → (replace path bytes files).2.contentAt? path = some (.ofBytes bytes)) ∧
        ∀ cause, (replace path bytes files).1 = .error cause →
          ((replace path bytes files).2.contentAt? path = files.contentAt? path ↔
              ¬ Renames files path bytes ∨ files.contentAt? path = some (.ofBytes bytes)) ∧
            ((Path.ofString path).parent.text.isEmpty = true → ¬ Renames files path bytes)) ∧
      ∀ (handle : Handle) (reported : Reported Unit) (after : FileSystem),
        (handle.exportTo (host none) path).run files = (.ok reported, after) →
        (reported.result = .ok () → ∃ image, handle.compacted = .ok image ∧ after.contentAt? path = some (.ofBytes image)) ∧
          ∀ error, reported.result = .error error →
            (after.contentAt? path = files.contentAt? path ↔ ∀ image, handle.compacted = .ok image →
              ¬ Renames files path image ∨ files.contentAt? path = some (.ofBytes image)) := by
  constructor
  · intro bytes
    have settled := settled tidy path bytes
    refine ⟨settled.old_or_new, fun done => ?_, fun cause failed => ?_⟩
    · rw [done] at settled
      exact settled.content_of_done
    · rw [failed] at settled
      exact ⟨settled.unchanged_iff, settled.undone_of_plain⟩
  · intro handle reported after ran
    rw [run_exportTo] at ran
    cases made : handle.compacted with
    | error error =>
      rw [made] at ran
      obtain ⟨same, rfl⟩ := Prod.mk.inj ran
      obtain rfl := Except.ok.inj same
      exact ⟨nofun, fun _ _ => ⟨fun _ => nofun, fun _ => rfl⟩⟩
    | ok image =>
      rw [made] at ran
      dsimp only at ran
      have settled := settled tidy path image
      cases came : (replace path image files).1 with
      | error cause =>
        rw [came] at ran settled
        obtain ⟨same, rfl⟩ := Prod.mk.inj ran
        obtain rfl := Except.ok.inj same
        refine ⟨nofun, fun _ _ => settled.unchanged_iff.trans ⟨fun either other found => ?_, fun each => each image rfl⟩⟩
        obtain rfl := Except.ok.inj found
        exact either
      | ok done =>
        rw [came] at ran settled
        obtain ⟨same, rfl⟩ := Prod.mk.inj ran
        obtain rfl := Except.ok.inj same
        exact ⟨fun _ => ⟨image, rfl, settled.content_of_done⟩, nofun⟩

/-! ### Replacements that come off -/

section Planned

variable {α : Type} {rest : List Outcome}

theorem planned_of_succeed (step : FileSystem → Except IoCause (α × FileSystem)) (plan : files.plan = .succeed :: rest) :
    (planned step).run files =
      match step files.ticked with
      | .error cause => (.error cause, files.ticked)
      | .ok (result, after) => (.ok result, after) := by
  unfold planned
  rw [execution_bind, run_nextStep_eq, plan]
  dsimp only [MemoryStore.nextOutcome]
  rw [execution_bind, show (get : Step FileSystem).run files.ticked = (.ok files.ticked, files.ticked) from rfl]
  dsimp only
  cases step files.ticked with
  | error cause => rfl
  | ok pair => rfl

theorem planned_of_fail (step : FileSystem → Except IoCause (α × FileSystem)) (plan : files.plan = .fail :: rest) :
    (planned step).run files = (.error (.worded "injected"), files.ticked) := by
  unfold planned
  rw [execution_bind, run_nextStep_eq, plan]
  rfl

theorem writeContent_of_succeed (identity : Nat) (bytes : Bytes) (plan : files.plan = .succeed :: rest) :
    (writeContent identity bytes).run files = (.ok (), files.ticked.setContent identity (.ofBytes bytes)) := by
  unfold writeContent
  rw [execution_bind, run_nextStep_eq, plan]
  show (Except.ok (), files.ticked.setContent identity (.ofBytes (bytes.take bytes.length))) = _
  rw [List.take_length]

theorem plan_ticked {outcome : Outcome} (plan : files.plan = outcome :: rest) : files.ticked.plan = rest := by
  unfold ticked
  rw [plan]
  rfl

end Planned

/-- The rename comes off when the plan lets its steps succeed and neither the target nor its sibling is
a directory. -/
theorem renames_of_plan (tidy : files.Tidy) {others : List String} {rest : List Outcome} (bytes : Bytes)
    (plan : files.plan = .succeed :: .succeed :: .succeed :: .succeed :: rest)
    (target : files.Leads path names) (resolved : files.resolve path = .ok (.named names false))
    (sibling : files.Leads (Path.temporary path) others)
    (resolvedSibling : files.resolve (Path.temporary path) = .ok (.named others false)) :
    ∃ after, (renameSteps path bytes).run files = (.ok (), after) ∧ after.plan = rest := by
  have tick : Spares path files files.ticked := spares_ticked tidy
  have resolvedTicked := tick.follows.resolve.mpr resolvedSibling
  obtain ⟨⟨identity, opened⟩, created⟩ :=
    fileForCreation_of_leads ⟨⟨false, resolvedTicked⟩, sibling.short, sibling.plain⟩ resolvedTicked
  obtain ⟨own, -, stands, evolves, -⟩ := fileForCreation_spec tick.follows.tidy created
  have prepared : Prepared path identity files opened :=
    ⟨tick.trans (Spares.created tick.follows.tidy created), own, stands⟩
  have first : (opened.setContent identity .empty).plan = .succeed :: .succeed :: .succeed :: rest :=
    evolves.plan.trans (plan_ticked plan)
  have second : ((opened.setContent identity .empty).ticked.setContent identity (.ofBytes bytes)).plan
      = .succeed :: .succeed :: rest := plan_ticked first
  have third := plan_ticked second
  have ready := (((prepared.written .empty).ticked.written (.ofBytes bytes)).ticked).ticked
  obtain ⟨last, filled⟩ := ready.stands
  obtain ⟨moved, renamed, left⟩ : ∃ moved, (((opened.setContent identity .empty).ticked.setContent identity
      (.ofBytes bytes)).ticked).ticked.rename (Path.temporary path) path = .ok moved ∧ moved.plan = rest :=
    ⟨_, rename_of_stands filled (ready.spares.follows.resolve.mpr resolved) target.short
      fun directory => target.plain ((ready.spares.follows.directories names).mpr directory), plan_ticked third⟩
  refine ⟨moved, ?_, left⟩
  unfold renameSteps createEmpty
  rw [execution_bind, planned_of_succeed _ plan, created]
  dsimp only
  rw [execution_bind, writeContent_of_succeed _ _ first]
  dsimp only
  rw [execution_bind, makeDurable, planned_of_succeed _ second]
  dsimp only
  rw [planned_of_succeed _ third, renamed]
  rfl

theorem makeParentDurable_of_fail {rest : List Outcome} (plan : files.plan = .fail :: rest)
    (parent : (Path.ofString path).parent.text.isEmpty = false) :
    (makeParentDurable path).run files = (.error (.worded "injected"), files.ticked) := by
  unfold makeParentDurable
  dsimp only
  rw [if_neg (Bool.eq_false_iff.mp parent), planned_of_fail _ plan]

/-- Where the write of the sibling is to stop, the rename is not come to. -/
theorem not_renames_of_short (tidy : files.Tidy) {count : Nat} {rest : List Outcome}
    (plan : files.plan = .succeed :: .short count :: rest) : ¬ Renames files path bytes := by
  rintro ⟨after, ran⟩
  unfold renameSteps createEmpty at ran
  rw [execution_bind, planned_of_succeed _ plan] at ran
  cases created : files.ticked.fileForCreation (Path.temporary path) with
  | error cause =>
    rw [created] at ran
    exact nomatch ran
  | ok pair =>
    have tick : Spares path files files.ticked := spares_ticked tidy
    obtain ⟨own, -, -, evolves, -⟩ := fileForCreation_spec tick.follows.tidy created
    have torn : (pair.2.setContent pair.1 .empty).plan = .short count :: rest := evolves.plan.trans (plan_ticked plan)
    rw [created] at ran
    dsimp only at ran
    unfold writeContent at ran
    rw [execution_bind, execution_bind, run_nextStep_eq, torn] at ran
    exact nomatch ran

/-- A write of the sibling that stops part of the way is told, and the target is left alone. -/
theorem undone_of_short (tidy : files.Tidy) {count : Nat} {rest : List Outcome} (bytes : Bytes)
    (plan : files.plan = .succeed :: .short count :: rest) :
    (∃ cause, (replace path bytes files).1 = .error cause) ∧ (replace path bytes files).2.contentAt? path = files.contentAt? path := by
  have short : ¬ Renames files path bytes := not_renames_of_short tidy plan
  have settled := settled tidy path bytes
  cases told : (replace path bytes files).1 with
  | ok done =>
    rw [told] at settled
    cases settled with
    | done renames content => exact absurd renames short
  | error cause =>
    rw [told] at settled
    exact ⟨⟨cause, rfl⟩, settled.unchanged_iff.mpr (.inl short)⟩

/-- Where only making the directory durable fails, a failure is told and the target holds the new bytes. -/
theorem replaced_of_unsafe_parent (tidy : files.Tidy) {others : List String} {rest : List Outcome} (bytes : Bytes)
    (plan : files.plan = .succeed :: .succeed :: .succeed :: .succeed :: .fail :: rest)
    (target : files.Leads path names) (resolved : files.resolve path = .ok (.named names false))
    (sibling : files.Leads (Path.temporary path) others)
    (resolvedSibling : files.resolve (Path.temporary path) = .ok (.named others false))
    (parent : (Path.ofString path).parent.text.isEmpty = false) :
    (replace path bytes files).1 = .error (.worded "injected") ∧
      (replace path bytes files).2.contentAt? path = some (.ofBytes bytes) := by
  obtain ⟨after, ran, left⟩ := renames_of_plan tidy bytes plan target resolved sibling resolvedSibling
  have told : (replace path bytes files).1 = .error (.worded "injected") := by
    rw [replace_run, replaceSteps_eq, execution_bind, ran]
    dsimp only
    rw [makeParentDurable_of_fail left parent]
  have settled := settled tidy path bytes
  rw [told] at settled
  cases settled with
  | undone short spares => exact absurd ⟨after, ran⟩ short
  | unsure renames parent content => exact ⟨told, content⟩

/-- A directory with one file, and a plan for the steps of the next replacement. -/
def oneFile (plan : List Outcome) : FileSystem where
  entries := [([".", "d"], .directory), ([".", "d", "x"], .file 0)]
  contents := [(0, .ofImage (.ofBytes [1]))]
  fresh := 1
  plan

section OneFile

theorem cut_target : "d/x".splitOn "/" = ["d", "x"] := by
  rw [Path.splitOn_eq]
  decide

theorem cut_sibling : "d/x.tmp".splitOn "/" = ["d", "x.tmp"] := by
  rw [Path.splitOn_eq]
  decide

variable (plan : List Outcome)

theorem tidy_oneFile : (oneFile plan).Tidy := by
  have sole : ∀ names identity, entry? (oneFile plan) names = some (.file identity) → names = [".", "d", "x"] ∧ identity = 0 := by
    intro names identity found
    unfold entry? oneFile at found
    split at found
    · exact nomatch found
    · by_cases file : names = [".", "d", "x"]
      · subst file
        exact ⟨rfl, (Entry.file.inj (Option.some.inj found)).symm⟩
      · by_cases directory : names = [".", "d"]
        · subst directory
          exact nomatch found
        · simp [Ne.symm file, Ne.symm directory] at found
  refine ⟨fun names identity found => ?_, fun names others identity one two => ?_⟩
  · rw [(sole names identity found).2]
    exact Nat.zero_lt_one
  · rw [(sole names identity one).1, (sole others identity two).1]

theorem stands_oneFile : (oneFile plan).Stands "d/x" [".", "d", "x"] 0 :=
  ⟨resolve_relative _ (by decide) (by decide) cut_target (by decide), by decide, rfl⟩

theorem contentAt?_oneFile : (oneFile plan).contentAt? "d/x" = some (.ofBytes [1]) := by
  refine contentAt?_eq_some_iff.mpr ⟨_, 0, stands_oneFile plan, Image.ext ?_⟩
  show (FileContent.ofImage (.ofBytes [1])).image.bytes = _
  rw [FileContent.bytes_image, FileContent.bytes_ofImage]

end OneFile

/-- The directory cannot be made durable: a failure is told, and the file holds the new bytes. -/
theorem renamed_file_is_told_failed :
    (replace "d/x" [2] (oneFile [.succeed, .succeed, .succeed, .succeed, .fail])).1 = .error (.worded "injected") ∧
      (oneFile [.succeed, .succeed, .succeed, .succeed, .fail]).contentAt? "d/x" = some (.ofBytes [1]) ∧
      (replace "d/x" [2] (oneFile [.succeed, .succeed, .succeed, .succeed, .fail])).2.contentAt? "d/x" = some (.ofBytes [2]) := by
  have temporary : Path.temporary "d/x" = "d/x.tmp" := by
    unfold Path.temporary Path.ofString
    rw [cut_target]
    decide
  have parent : (Path.ofString "d/x").parent.text.isEmpty = false := by
    unfold Path.ofString
    rw [cut_target]
    decide
  have target := stands_oneFile [.succeed, .succeed, .succeed, .succeed, .fail]
  have sibling : (oneFile [.succeed, .succeed, .succeed, .succeed, .fail]).resolve (Path.temporary "d/x")
      = .ok (.named [".", "d", "x.tmp"] false) := by
    rw [temporary]
    exact resolve_relative _ (by decide) (by decide) cut_sibling (by decide)
  obtain ⟨told, content⟩ := replaced_of_unsafe_parent (tidy_oneFile _) [2] rfl
    ⟨⟨false, target.resolved⟩, target.short, by rw [target.file]; exact nofun⟩ target.resolved
    ⟨⟨false, sibling⟩, by decide, nofun⟩ sibling parent
  exact ⟨told, contentAt?_oneFile _, content⟩

end CheckpointStore.FileSystem
