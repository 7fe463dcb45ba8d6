import CheckpointStore.Files.Host
import CheckpointStore.Proofs.Paths
import CheckpointStore.Proofs.Reading

/-!
# What a file system keeps

Files are made, written, given other names and removed, but directories stay, so a path that leads
somewhere goes on leading there. As long as no two names stand for one file, writing one file changes
no other. A file that is replaced leaves every other name alone, except the one of the sibling that is
written first.
-/

namespace CheckpointStore.FileSystem

variable {files a b c : FileSystem} {path : String} {names others : List String} {identity : Nat}

theorem entry?_setEntry (files : FileSystem) (path other : List String) (entry : Option Entry) :
    entry? (files.setEntry path entry) other =
      if other = [] ∨ other = currentDirectory then some .directory
      else if other = path then entry else files.entry? other := by
  unfold entry? setEntry
  by_cases root : other = [] ∨ other = currentDirectory
  · rw [if_pos root, if_pos root]
  · rw [if_neg root, if_neg root]
    by_cases same : other = path
    · subst same
      have absent : (files.entries.filter fun entry => entry.1 != other).find? (fun entry => entry.1 == other) = none := by
        simp
      cases entry <;> simp [absent]
    · have kept : (files.entries.filter fun entry => entry.1 != path).find? (fun entry => entry.1 == other)
          = files.entries.find? fun entry => entry.1 == other := by
        rw [List.find?_filter]
        congr 1
        funext entry
        by_cases here : entry.1 = other <;> simp [here, same]
      cases entry <;> simp [kept, root, same, Ne.symm same]

theorem stored_store (files : FileSystem) (identity other : Nat) (content : FileContent) :
    (files.store identity content).stored other = if other = identity then content else files.stored other := by
  unfold stored store
  by_cases same : other = identity
  · simp [same]
  · have kept : (files.contents.filter fun content => content.1 != identity).find? (fun content => content.1 == other)
        = files.contents.find? fun content => content.1 == other := by
      rw [List.find?_filter]
      congr 1
      funext content
      by_cases here : content.1 = other <;> simp [here, same]
    simp [kept, same, Ne.symm same]

theorem store_store (files : FileSystem) (identity : Nat) (first last : FileContent) :
    (files.store identity first).store identity last = files.store identity last := by
  unfold store
  simp

/-! ### Paths -/

theorem find_ok_iff {entry : Option Entry} :
    files.find names = .ok entry ↔ (names.getLast?.getD "").utf8ByteSize ≤ maxName ∧ files.entry? names = entry := by
  rw [find, check_ok_iff, Nat.not_lt, Except.ok.injEq]

def SameDirectories (a b : FileSystem) : Prop := ∀ path, a.entry? path = some .directory ↔ b.entry? path = some .directory

theorem walk_of_same (same : SameDirectories a b) {here parts : List String} {place : Place}
    (walked : a.walk here parts = .ok place) : b.walk here parts = .ok place := by
  induction parts generalizing here with
  | nil => exact walked
  | cons part rest ih =>
    rw [walk] at walked ⊢
    split at walked
    · rename_i dot
      rw [if_pos dot]
      exact ih walked
    · rename_i named
      rw [if_neg named]
      split at walked
      · rename_i up
        rw [if_pos up]
        exact ih walked
      · rename_i down
        rw [if_neg down]
        split at walked
        · rename_i last
          rw [if_pos last]
          exact walked
        · rename_i more
          rw [if_neg more]
          split at walked
          · contradiction
          · rename_i found
            obtain ⟨short, directory⟩ := find_ok_iff.mp found
            rw [find_ok_iff.mpr ⟨short, (same _).mp directory⟩]
            exact ih walked
          · contradiction
          · contradiction

theorem resolve_of_same (same : SameDirectories a b) {place : Place} (resolved : a.resolve path = .ok place) :
    b.resolve path = .ok place := by
  unfold resolve at resolved ⊢
  split at resolved
  · contradiction
  · rename_i plain
    rw [if_neg plain]
    split at resolved
    · contradiction
    · rename_i some
      rw [if_neg some]
      split at resolved
      · contradiction
      · rename_i short
        rw [if_neg short]
        split at resolved <;> exact walk_of_same same resolved

/-- A path that does not start at the root is walked from the current directory. -/
theorem resolve_relative (files : FileSystem) {first : String} {rest : List String} (clear : '\x00' ∉ path.toList)
    (short : path.utf8ByteSize ≤ maxPath) (cut : path.splitOn "/" = first :: rest) (named : first ≠ "") :
    files.resolve path = files.walk currentDirectory (first :: rest) := by
  have plain : path.contains '\x00' = false := by simpa using clear
  have filled : path.isEmpty = false := by
    refine Bool.eq_false_iff.mpr fun empty => named ?_
    rw [String.isEmpty_iff.mp empty, Path.splitOn_of_absent (by decide)] at cut
    exact (List.cons.inj cut).1.symm
  rw [resolve, if_neg (by simp [plain]), if_neg (by simp [filled]), if_neg (by omega), cut]
  split
  · rename_i same
    exact absurd (List.cons.inj same).1 named
  · rfl

/-- A plain name leads into the current directory. -/
theorem resolve_name (files : FileSystem) {name : String}
    (plain : name ≠ "" ∧ name ≠ "." ∧ name ≠ ".." ∧ '\x00' ∉ name.toList ∧ '/' ∉ name.toList ∧ name.utf8ByteSize ≤ maxPath) :
    files.resolve name = .ok (.named [".", name] false) := by
  obtain ⟨filled, dot, dots, clear, slash, short⟩ := plain
  rw [resolve_relative files clear short (Path.splitOn_of_absent slash) filled, walk, if_neg (by simp [filled, dot]),
    if_neg dots]
  rfl

/-- A path stands for a file. -/
structure Stands (files : FileSystem) (path : String) (names : List String) (identity : Nat) : Prop where
  resolved : files.resolve path = .ok (.named names false)
  short : (names.getLast?.getD "").utf8ByteSize ≤ maxName
  file : files.entry? names = some (.file identity)

theorem stat_file_iff : files.stat path = .ok (.file identity) ↔ ∃ names, files.Stands path names identity := by
  unfold stat
  constructor
  · intro found
    split at found
    · contradiction
    · cases found
    rename_i names slash resolved
    split at found
    · contradiction
    · contradiction
    · cases found
    · rename_i other there
      obtain ⟨short, here⟩ := find_ok_iff.mp there
      split at found
      · contradiction
      · rename_i plain
        rw [Bool.not_eq_true] at plain
        subst plain
        obtain rfl := Entry.file.inj (Except.ok.inj found)
        exact ⟨names, resolved, short, here⟩
  · rintro ⟨names, resolved, short, here⟩
    simp only [resolved, find_ok_iff.mpr ⟨short, here⟩, Bool.false_eq_true, if_false]

theorem fileForWriting_ok_iff : files.fileForWriting path = .ok identity ↔ ∃ names, files.Stands path names identity := by
  rw [← stat_file_iff, fileForWriting]
  cases files.stat path with
  | error cause => simp
  | ok entry => cases entry <;> simp

/-! ### What changes and what does not -/

/-- Every identity was given out by the counter, and no two names stand for one file. -/
structure Tidy (files : FileSystem) : Prop where
  given : ∀ names identity, files.entry? names = some (.file identity) → identity < files.fresh
  apart : ∀ names others identity, files.entry? names = some (.file identity) →
    files.entry? others = some (.file identity) → names = others

/-- What every step on files keeps. -/
structure Evolves (a b : FileSystem) : Prop where
  directories : SameDirectories a b
  tidy : b.Tidy
  plan : b.plan = a.plan

/-- A name stands for what it stood for, and its file holds what it held. -/
structure Keeps (names : List String) (a b : FileSystem) : Prop where
  entry : b.entry? names = a.entry? names
  stored : ∀ identity, a.entry? names = some (.file identity) → b.stored identity = a.stored identity

theorem Evolves.refl (tidy : files.Tidy) : files.Evolves files := ⟨fun _ => Iff.rfl, tidy, rfl⟩

theorem Evolves.trans (first : a.Evolves b) (second : b.Evolves c) : a.Evolves c :=
  ⟨fun path => (first.directories path).trans (second.directories path), second.tidy, second.plan.trans first.plan⟩

theorem Evolves.resolve (evolves : a.Evolves b) {place : Place} :
    b.resolve path = .ok place ↔ a.resolve path = .ok place :=
  ⟨resolve_of_same fun other => (evolves.directories other).symm, resolve_of_same evolves.directories⟩

theorem Stands.of_evolves (stands : files.Stands path names identity) (evolves : files.Evolves a)
    (same : a.entry? names = files.entry? names) : a.Stands path names identity :=
  ⟨evolves.resolve.mpr stands.resolved, stands.short, same.trans stands.file⟩

theorem Keeps.refl (names : List String) (files : FileSystem) : Keeps names files files := ⟨rfl, fun _ _ => rfl⟩

theorem Keeps.trans (first : Keeps names a b) (second : Keeps names b c) : Keeps names a c := by
  refine ⟨second.entry.trans first.entry, fun identity here => ?_⟩
  rw [second.stored identity (first.entry.trans here), first.stored identity here]

theorem evolves_store (tidy : files.Tidy) (identity : Nat) (content : FileContent) :
    files.Evolves (files.store identity content) := ⟨fun _ => Iff.rfl, ⟨tidy.given, tidy.apart⟩, rfl⟩

theorem keeps_store (other : files.entry? names ≠ some (.file identity)) (content : FileContent) :
    Keeps names files (files.store identity content) := by
  refine ⟨rfl, fun found here => ?_⟩
  rw [stored_store, if_neg]
  rintro rfl
  exact other here

theorem entry?_setEntry_of_ne (different : others ≠ names) (entry : Option Entry) :
    entry? (files.setEntry names entry) others = files.entry? others := by
  rw [entry?_setEntry, if_neg different]
  split
  · rename_i root
    rw [FileSystem.entry?, if_pos root]
  · rfl

theorem entry?_setEntry_self (plain : files.entry? names ≠ some .directory) (entry : Option Entry) :
    entry? (files.setEntry names entry) names = entry := by
  rw [entry?_setEntry, if_neg fun root => plain (by rw [FileSystem.entry?, if_pos root]), if_pos rfl]

theorem keeps_setEntry (different : others ≠ names) (entry : Option Entry) :
    Keeps others files (files.setEntry names entry) := ⟨entry?_setEntry_of_ne different entry, fun _ _ => rfl⟩

/-- A name that is no directory's comes to stand for nothing, or for a file that no other name stands for. -/
theorem evolves_setEntry (tidy : files.Tidy) {entry : Option Entry} (plain : files.entry? names ≠ some .directory)
    (file : entry ≠ some .directory)
    (sole : ∀ identity, entry = some (.file identity) → identity < files.fresh ∧
      ∀ others, files.entry? others = some (.file identity) → others = names) :
    files.Evolves (files.setEntry names entry) := by
  have here := entry?_setEntry_self plain entry
  refine ⟨fun others => ?_, ⟨fun others identity found => ?_, fun first second identity one two => ?_⟩, rfl⟩
  · by_cases same : others = names
    · subst same
      rw [here]
      exact ⟨fun directory => absurd directory plain, fun directory => absurd directory file⟩
    · rw [entry?_setEntry_of_ne same]
  · by_cases same : others = names
    · subst same
      rw [here] at found
      exact (sole identity found).1
    · rw [entry?_setEntry_of_ne same] at found
      exact tidy.given others identity found
  -- a file gains no second name, whichever of its names is the one that is set
  · by_cases left : first = names <;> by_cases right : second = names
    · rw [left, right]
    · subst left
      rw [here] at one
      rw [entry?_setEntry_of_ne right] at two
      exact absurd ((sole identity one).2 second two) right
    · subst right
      rw [here] at two
      rw [entry?_setEntry_of_ne left] at one
      exact absurd ((sole identity two).2 first one) left
    · rw [entry?_setEntry_of_ne left] at one
      rw [entry?_setEntry_of_ne right] at two
      exact tidy.apart first second identity one two

theorem evolves_removed (tidy : files.Tidy) (plain : files.entry? names ≠ some .directory) :
    files.Evolves (files.setEntry names none) := evolves_setEntry tidy plain nofun nofun

/-! ### Making, removing and renaming files -/

theorem evolves_addFile (tidy : files.Tidy) (absent : files.entry? names = none) :
    files.Evolves (files.addFile names).2 := by
  -- the identity is counted first, then it is given a content, and a name last
  have counted : files.Evolves { files with fresh := files.fresh + 1 } :=
    ⟨fun _ => Iff.rfl, ⟨fun others identity found => Nat.lt_succ_of_lt (tidy.given others identity found), tidy.apart⟩, rfl⟩
  have emptied := counted.trans (evolves_store counted.tidy files.fresh (.ofImage .empty))
  refine emptied.trans (evolves_setEntry emptied.tidy ?_ nofun ?_)
  · show files.entry? names ≠ some .directory
    rw [absent]
    exact nofun
  · rintro identity ⟨⟩
    exact ⟨Nat.lt_succ_self _, fun others found => absurd (tidy.given others _ found) (Nat.lt_irrefl _)⟩

theorem keeps_addFile (tidy : files.Tidy) (different : others ≠ names) : Keeps others files (files.addFile names).2 := by
  have emptied : Keeps others files ({ files with fresh := files.fresh + 1 }.setContent files.fresh .empty) := by
    refine ⟨rfl, fun identity found => ?_⟩
    have old := tidy.given others identity found
    rw [setContent, stored_store, if_neg (Nat.ne_of_lt old)]
    rfl
  exact emptied.trans (keeps_setEntry different _)

/-- What opening a file for creation has come to when it succeeds: the name stands for the file. -/
theorem fileForCreation_spec (tidy : files.Tidy) {opened : FileSystem}
    (created : files.fileForCreation path = .ok (identity, opened)) :
    ∃ names, files.resolve path = .ok (.named names false) ∧ opened.Stands path names identity ∧
      files.Evolves opened ∧ ∀ others, others ≠ names → Keeps others files opened := by
  unfold fileForCreation at created
  split at created
  · contradiction
  · contradiction
  rename_i names slash resolved
  split at created
  · contradiction
  rename_i file
  rw [Bool.not_eq_true] at file
  subst file
  split at created
  · contradiction
  · contradiction
  · rename_i found there
    obtain ⟨rfl, rfl⟩ := Prod.mk.inj (Except.ok.inj created)
    obtain ⟨short, here⟩ := find_ok_iff.mp there
    exact ⟨names, resolved, ⟨resolved, short, here⟩, .refl tidy, fun others _ => .refl others files⟩
  · rename_i there
    obtain ⟨rfl, rfl⟩ := Prod.mk.inj (Except.ok.inj created)
    obtain ⟨short, absent⟩ := find_ok_iff.mp there
    have evolves := evolves_addFile tidy absent
    refine ⟨names, resolved, ⟨evolves.resolve.mpr resolved, short, ?_⟩, evolves,
      fun others different => keeps_addFile tidy different⟩
    refine entry?_setEntry_self ?_ _
    show files.entry? names ≠ some .directory
    rw [absent]
    exact nofun

def unlinked (files : FileSystem) (path : String) : FileSystem := (files.unlink path).toOption.getD files

structure Leads (files : FileSystem) (path : String) (names : List String) : Prop where
  resolved : ∃ slash, files.resolve path = .ok (.named names slash)
  short : (names.getLast?.getD "").utf8ByteSize ≤ maxName
  plain : files.entry? names ≠ some .directory

theorem Leads.find (leads : files.Leads path names) : files.find names = .ok (files.entry? names) :=
  find_ok_iff.mpr ⟨leads.short, rfl⟩

theorem fileForCreation_of_leads (leads : files.Leads path names) (resolved : files.resolve path = .ok (.named names false)) :
    ∃ made, files.fileForCreation path = .ok made := by
  unfold fileForCreation
  simp only [resolved, leads.find, Bool.false_eq_true, if_false]
  cases there : files.entry? names with
  | none => exact ⟨_, rfl⟩
  | some entry =>
    cases entry with
    | directory => exact absurd there leads.plain
    | file identity => exact ⟨_, rfl⟩

theorem unlinked_cases (files : FileSystem) (path : String) :
    files.unlinked path = files ∨
      ∃ names, files.Leads path names ∧ files.unlinked path = files.setEntry names none := by
  unfold unlinked unlink
  split
  · exact .inl rfl
  · exact .inl rfl
  rename_i names slash resolved
  split
  · exact .inl rfl
  · exact .inl rfl
  · exact .inl rfl
  · rename_i identity there
    obtain ⟨short, found⟩ := find_ok_iff.mp there
    exact .inr ⟨names, ⟨⟨slash, resolved⟩, short, by rw [found]; exact nofun⟩, rfl⟩

theorem evolves_unlinked (tidy : files.Tidy) (path : String) : files.Evolves (files.unlinked path) := by
  obtain same | ⟨names, leads, removed⟩ := unlinked_cases files path
  · rw [same]
    exact .refl tidy
  · rw [removed]
    exact evolves_removed tidy leads.plain

theorem keeps_unlinked (elsewhere : ∀ slash, files.resolve path ≠ .ok (.named names slash)) :
    Keeps names files (files.unlinked path) := by
  obtain same | ⟨others, leads, removed⟩ := unlinked_cases files path
  · rw [same]
    exact .refl names files
  · rw [removed]
    refine keeps_setEntry ?_ none
    rintro rfl
    obtain ⟨slash, resolved⟩ := leads.resolved
    exact elsewhere slash resolved

theorem entry?_unlinked (leads : files.Leads path names) : entry? (files.unlinked path) names = none := by
  obtain ⟨slash, resolved⟩ := leads.resolved
  have removed := entry?_setEntry_self leads.plain none
  unfold unlinked unlink
  rw [resolved]
  simp only [leads.find]
  cases there : files.entry? names with
  | none => exact there
  | some entry =>
    cases entry with
    | directory => exact absurd there leads.plain
    | file identity => exact removed

theorem entry?_unlinked_of_none (absent : files.entry? names = none) (path : String) :
    entry? (files.unlinked path) names = none := by
  obtain same | ⟨others, leads, removed⟩ := unlinked_cases files path
  · rw [same, absent]
  · rw [removed]
    by_cases here : names = others
    · subst here
      exact entry?_setEntry_self leads.plain none
    · rw [entry?_setEntry_of_ne here, absent]

/-- What a rename does when it succeeds: the one name is gone, and the other stands for its file. -/
theorem rename_spec {source target : String} {renamed : FileSystem} (done : files.rename source target = .ok renamed) :
    ∃ names others slash identity, files.resolve source = .ok (.named names slash) ∧
      files.resolve target = .ok (.named others false) ∧ files.entry? names = some (.file identity) ∧
      files.Leads target others ∧
      renamed = (files.setEntry names none).setEntry others (some (.file identity)) := by
  unfold rename at done
  split at done
  · contradiction
  · contradiction
  · contradiction
  · contradiction
  rename_i names slash others last here there
  split at done
  · contradiction
  · contradiction
  · contradiction
  · contradiction
  rename_i identity entry found aimed
  split at done
  · contradiction
  rename_i file
  rw [Bool.not_eq_true] at file
  subst file
  split at done
  · contradiction
  rename_i plain
  obtain ⟨short, rfl⟩ := find_ok_iff.mp aimed
  exact ⟨names, others, slash, identity, here, there, (find_ok_iff.mp found).2, ⟨⟨false, there⟩, short, plain⟩,
    (Except.ok.inj done).symm⟩

theorem evolves_rename (tidy : files.Tidy) {source target : String} {renamed : FileSystem}
    (done : files.rename source target = .ok renamed) : files.Evolves renamed := by
  obtain ⟨names, others, slash, identity, -, -, file, leads, rfl⟩ := rename_spec done
  have gone : files.entry? names ≠ some .directory := by
    rw [file]
    exact nofun
  have removed := evolves_removed tidy gone
  refine removed.trans (evolves_setEntry removed.tidy ?_ nofun ?_)
  · exact fun directory => leads.plain ((removed.directories others).mpr directory)
  · rintro _ ⟨⟩
    refine ⟨tidy.given names identity file, fun other found => ?_⟩
    by_cases same : other = names
    · subst same
      rw [entry?_setEntry_self gone] at found
      contradiction
    · rw [entry?_setEntry_of_ne same] at found
      exact absurd (tidy.apart other names identity found file) same

theorem keeps_rename {source target : String} {renamed : FileSystem} (done : files.rename source target = .ok renamed)
    (here : ∀ slash, files.resolve source ≠ .ok (.named names slash)) (there : files.resolve target ≠ .ok (.named names false)) :
    Keeps names files renamed := by
  obtain ⟨old, new, slash, identity, source, target, -, -, rfl⟩ := rename_spec done
  have first : names ≠ old := by
    rintro rfl
    exact here slash source
  have second : names ≠ new := by
    rintro rfl
    exact there target
  exact (keeps_setEntry first none).trans (keeps_setEntry second _)

theorem rename_of_stands {source target : String} (stands : files.Stands source names identity)
    (resolved : files.resolve target = .ok (.named others false)) (short : (others.getLast?.getD "").utf8ByteSize ≤ maxName)
    (plain : files.entry? others ≠ some .directory) :
    files.rename source target = .ok ((files.setEntry names none).setEntry others (some (.file identity))) := by
  unfold rename
  simp only [stands.resolved, resolved, find_ok_iff.mpr ⟨stands.short, stands.file⟩, find_ok_iff.mpr ⟨short, rfl⟩,
    Bool.false_eq_true, if_false, if_neg plain]

theorem entry?_rename {source target : String} {renamed : FileSystem} {slash : Bool}
    (done : files.rename source target = .ok renamed) (here : files.resolve source = .ok (.named names slash))
    (there : files.resolve target ≠ .ok (.named names false)) : renamed.entry? names = none := by
  obtain ⟨old, new, last, identity, source, target, file, -, rfl⟩ := rename_spec done
  rw [here] at source
  obtain ⟨rfl, -⟩ := Place.named.inj (Except.ok.inj source)
  have different : names ≠ new := by
    rintro rfl
    exact there target
  rw [entry?_setEntry_of_ne different, entry?_setEntry_self (by rw [file]; exact nofun)]

/-! ### Replacing a file -/

section Steps
variable {α β : Type}

theorem execution_bind {ε : Type} (first : ExceptT ε (StateM FileSystem) α) (next : α → ExceptT ε (StateM FileSystem) β)
    (files : FileSystem) :
    (first >>= next).run files =
      match first.run files with
      | (.ok value, after) => (next value).run after
      | (.error cause, after) => (.error cause, after) := by
  show (ExceptT.bindCont next (first.run files).1).run (first.run files).2 = _
  obtain ⟨result, after⟩ := first.run files
  cases result <;> rfl

theorem state_bind (first : StateM FileSystem α) (next : α → StateM FileSystem β) (files : FileSystem) :
    (first >>= next) files = next (first files).1 (first files).2 := rfl

theorem nextStep_calm (calm : files.plan = []) : nextStep files = (.succeed, files) := by
  unfold nextStep
  rw [calm]
  cases files
  subst calm
  rfl

theorem run_nextStep (calm : files.plan = []) : (nextStep : Step Outcome).run files = (.ok .succeed, files) := by
  show (Except.ok (nextStep files).1, (nextStep files).2) = _
  rw [nextStep_calm calm]

theorem planned_calm (step : FileSystem → Except IoCause (α × FileSystem)) (calm : files.plan = []) :
    (planned step).run files =
      match step files with
      | .error cause => (.error cause, files)
      | .ok (result, after) => (.ok result, after) := by
  unfold planned
  rw [execution_bind, run_nextStep calm]
  dsimp only
  rw [execution_bind, show (get : Step FileSystem).run files = (.ok files, files) from rfl]
  dsimp only
  cases step files with
  | error cause => rfl
  | ok pair => rfl

theorem writeContent_calm (identity : Nat) (bytes : Bytes) (calm : files.plan = []) :
    (writeContent identity bytes).run files = (.ok (), files.setContent identity (.ofBytes bytes)) := by
  unfold writeContent
  rw [execution_bind, run_nextStep calm]
  show (Except.ok (), files.setContent identity (.ofBytes (bytes.take bytes.length))) = _
  rw [List.take_length]

end Steps

/-- Everything that replacing a file comes to without faults. -/
inductive Replaced (files : FileSystem) (path : String) (bytes : Bytes) : Except IoCause Unit → FileSystem → Prop where
  | refused {cause : IoCause} (created : files.fileForCreation (Path.temporary path) = .error cause) :
      Replaced files path bytes (.error cause) (files.unlinked (Path.temporary path))
  | stayed {cause : IoCause} {identity : Nat} {opened : FileSystem}
      (created : files.fileForCreation (Path.temporary path) = .ok (identity, opened))
      (renamed : (opened.setContent identity (.ofBytes bytes)).rename (Path.temporary path) path = .error cause) :
      Replaced files path bytes (.error cause)
        ((opened.setContent identity (.ofBytes bytes)).unlinked (Path.temporary path))
  | moved {identity : Nat} {opened renamed : FileSystem}
      (created : files.fileForCreation (Path.temporary path) = .ok (identity, opened))
      (moved : (opened.setContent identity (.ofBytes bytes)).rename (Path.temporary path) path = .ok renamed) :
      Replaced files path bytes (.ok ()) renamed
  | unsure {cause : IoCause} {identity : Nat} {opened renamed : FileSystem}
      (created : files.fileForCreation (Path.temporary path) = .ok (identity, opened))
      (moved : (opened.setContent identity (.ofBytes bytes)).rename (Path.temporary path) path = .ok renamed)
      (parent : (Path.ofString path).parent.text.isEmpty = false) :
      Replaced files path bytes (.error cause) (renamed.unlinked (Path.temporary path))

theorem makeParentDurable_calm (path : String) (calm : files.plan = []) :
    ∃ result, (makeParentDurable path).run files = (result, files) ∧
      ∀ cause, result = .error cause → (Path.ofString path).parent.text.isEmpty = false := by
  unfold makeParentDurable
  dsimp only
  split
  · exact ⟨_, rfl, nofun⟩
  · rename_i named
    rw [planned_calm _ calm]
    cases files.stat (Path.ofString path).parent.text with
    | error cause => exact ⟨_, rfl, fun _ _ => Bool.eq_false_iff.mpr named⟩
    | ok entry => exact ⟨_, rfl, fun _ _ => Bool.eq_false_iff.mpr named⟩

theorem rename_calm {source target : String} {renamed : FileSystem} (calm : files.plan = [])
    (done : files.rename source target = .ok renamed) : renamed.plan = [] := by
  obtain ⟨names, others, slash, identity, -, -, -, -, rfl⟩ := rename_spec done
  exact calm

/-- A failure is followed by the removal of the sibling, where it can be removed. -/
theorem replace_run (path : String) (bytes : Bytes) (files : FileSystem) :
    replace path bytes files =
      match (replaceSteps path bytes).run files with
      | (.ok (), after) => (.ok (), after)
      | (.error cause, after) => (.error cause, after.unlinked (Path.temporary path)) := by
  unfold replace
  rw [state_bind]
  obtain ⟨result, after⟩ := (replaceSteps path bytes).run files
  cases result <;> rfl

theorem replaced (tidy : files.Tidy) (calm : files.plan = []) (path : String) (bytes : Bytes) :
    Replaced files path bytes (replace path bytes files).1 (replace path bytes files).2 := by
  -- the sibling is made, filled and renamed, and then the parent is made durable
  rw [replace_run]
  unfold replaceSteps createEmpty
  rw [execution_bind, planned_calm _ calm]
  cases created : files.fileForCreation (Path.temporary path) with
  | error cause => exact .refused created
  | ok pair =>
    obtain ⟨identity, opened⟩ := pair
    obtain ⟨names, -, -, evolves, -⟩ := fileForCreation_spec tidy created
    have empty : (opened.setContent identity .empty).plan = [] := evolves.plan.trans calm
    have written : (opened.setContent identity .empty).setContent identity (.ofBytes bytes)
        = opened.setContent identity (.ofBytes bytes) := store_store _ _ _ _
    have full : (opened.setContent identity (.ofBytes bytes)).plan = [] := evolves.plan.trans calm
    dsimp only
    rw [execution_bind, writeContent_calm identity bytes empty, written]
    dsimp only
    rw [execution_bind, makeDurable, planned_calm _ full]
    dsimp only
    rw [execution_bind, planned_calm _ full]
    cases moved : (opened.setContent identity (.ofBytes bytes)).rename (Path.temporary path) path with
    | error cause => exact .stayed created moved
    | ok renamed =>
      obtain ⟨result, durable, parent⟩ := makeParentDurable_calm path (rename_calm full moved)
      simp only [Except.map, durable]
      cases result with
      | ok done => exact .moved created moved
      | error cause => exact .unsure created moved (parent cause rfl)

namespace Replaced

variable {bytes : Bytes} {result : Except IoCause Unit} {after : FileSystem}

section Written

variable {identity : Nat} {opened renamed : FileSystem}

theorem written (tidy : files.Tidy) (created : files.fileForCreation path = .ok (identity, opened)) (bytes : Bytes) :
    files.Evolves (opened.setContent identity (.ofBytes bytes)) := by
  obtain ⟨-, -, -, evolves, -⟩ := fileForCreation_spec tidy created
  exact evolves.trans (evolves_store evolves.tidy identity _)

theorem keeps_written (tidy : files.Tidy) (created : files.fileForCreation path = .ok (identity, opened))
    (sibling : ∀ slash, files.resolve path ≠ .ok (.named names slash)) :
    Keeps names files (opened.setContent identity (.ofBytes bytes)) := by
  obtain ⟨own, resolved, here, evolves, elsewhere⟩ := fileForCreation_spec tidy created
  have different : names ≠ own := by
    rintro rfl
    exact sibling false resolved
  refine (elsewhere names different).trans (keeps_store (fun found => ?_) _)
  exact different (evolves.tidy.apart names own identity found here.file)

theorem evolves_moved (tidy : files.Tidy) (created : files.fileForCreation (Path.temporary path) = .ok (identity, opened))
    (moved : (opened.setContent identity (.ofBytes bytes)).rename (Path.temporary path) path = .ok renamed) :
    files.Evolves renamed := by
  have behind := written tidy created bytes
  exact behind.trans (evolves_rename behind.tidy moved)

theorem keeps_moved (tidy : files.Tidy) (created : files.fileForCreation (Path.temporary path) = .ok (identity, opened))
    (moved : (opened.setContent identity (.ofBytes bytes)).rename (Path.temporary path) path = .ok renamed)
    (target : files.resolve path ≠ .ok (.named names false))
    (sibling : ∀ slash, files.resolve (Path.temporary path) ≠ .ok (.named names slash)) : Keeps names files renamed := by
  have behind := written tidy created bytes
  exact (keeps_written tidy created sibling).trans
    (keeps_rename moved (fun slash resolved => sibling slash (behind.resolve.mp resolved))
      fun resolved => target (behind.resolve.mp resolved))

end Written

theorem evolves (replaced : Replaced files path bytes result after) (tidy : files.Tidy) : files.Evolves after := by
  cases replaced with
  | refused created => exact evolves_unlinked tidy _
  | stayed created renamed => exact (written tidy created bytes).trans (evolves_unlinked (written tidy created bytes).tidy _)
  | moved created moved => exact evolves_moved tidy created moved
  | unsure created moved parent =>
    have past := evolves_moved tidy created moved
    exact past.trans (evolves_unlinked past.tidy _)

/-- A name keeps its file, unless it is the target's or that of the sibling that is written first. -/
theorem keeps (replaced : Replaced files path bytes result after) (tidy : files.Tidy)
    (target : files.resolve path ≠ .ok (.named names false))
    (sibling : ∀ slash, files.resolve (Path.temporary path) ≠ .ok (.named names slash)) : Keeps names files after := by
  cases replaced with
  | refused created => exact keeps_unlinked sibling
  | stayed created renamed =>
    have behind := written tidy created bytes
    exact (keeps_written tidy created sibling).trans
      (keeps_unlinked fun slash resolved => sibling slash (behind.resolve.mp resolved))
  | moved created moved => exact keeps_moved tidy created moved target sibling
  | unsure created moved parent =>
    have past := evolves_moved tidy created moved
    exact (keeps_moved tidy created moved target sibling).trans
      (keeps_unlinked fun slash resolved => sibling slash (past.resolve.mp resolved))

theorem gone (replaced : Replaced files path bytes result after) (tidy : files.Tidy)
    (target : files.resolve path ≠ .ok (.named names false)) (sibling : files.Leads (Path.temporary path) names) :
    after.entry? names = none := by
  obtain ⟨slash, resolved⟩ := sibling.resolved
  cases replaced with
  | refused created => exact entry?_unlinked sibling
  | stayed created renamed =>
    have behind := written tidy created bytes
    exact entry?_unlinked ⟨⟨slash, behind.resolve.mpr resolved⟩, sibling.short,
      fun directory => sibling.plain ((behind.directories names).mpr directory)⟩
  | moved created moved =>
    have behind := written tidy created bytes
    exact entry?_rename moved (behind.resolve.mpr resolved) fun there => target (behind.resolve.mp there)
  | unsure created moved parent =>
    have behind := written tidy created bytes
    refine entry?_unlinked_of_none ?_ _
    exact entry?_rename moved (behind.resolve.mpr resolved) fun there => target (behind.resolve.mp there)

theorem stands (replaced : Replaced files path bytes (.ok ()) after) (tidy : files.Tidy) :
    ∃ names identity, after.Stands path names identity ∧ (after.content identity).bytes = bytes := by
  cases replaced with
  | @moved identity opened renamed created moved =>
    obtain ⟨own, resolved, here, -, -⟩ := fileForCreation_spec tidy created
    have behind := written tidy created bytes
    have past := evolves_rename behind.tidy moved
    obtain ⟨old, new, slash, other, source, target, file, leads, rfl⟩ := rename_spec moved
    rw [behind.resolve.mpr resolved] at source
    obtain ⟨rfl, -⟩ := Place.named.inj (Except.ok.inj source)
    obtain rfl := Entry.file.inj (Option.some.inj (here.file.symm.trans file))
    refine ⟨new, identity, ⟨past.resolve.mpr target, leads.short, entry?_setEntry_self ?_ _⟩, ?_⟩
    · exact fun directory => leads.plain (((evolves_removed behind.tidy (by rw [file]; exact nofun)).directories new).mpr directory)
    · show ((opened.store identity (.ofImage (.ofBytes bytes))).content identity).bytes = bytes
      rw [FileSystem.content, stored_store, if_pos rfl, FileContent.bytes_image, FileContent.bytes_ofImage, Image.bytes_ofBytes]

/-- A file in the current directory is replaced unless it or its sibling is a directory. -/
theorem succeeds (replaced : Replaced files path bytes result after) (tidy : files.Tidy)
    (resolved : files.resolve path = .ok (.named names false)) (short : (names.getLast?.getD "").utf8ByteSize ≤ maxName)
    (plain : files.entry? names ≠ some .directory)
    (sibling : files.resolve (Path.temporary path) = .ok (.named others false))
    (brief : (others.getLast?.getD "").utf8ByteSize ≤ maxName) (free : files.entry? others ≠ some .directory)
    (parent : (Path.ofString path).parent.text.isEmpty = true) : result = .ok () := by
  have creation := fileForCreation_of_leads ⟨⟨false, sibling⟩, brief, free⟩ sibling
  cases replaced with
  | refused created =>
    obtain ⟨made, creation⟩ := creation
    rw [creation] at created
    contradiction
  | @stayed cause identity opened created renamed =>
    obtain ⟨own, -, here, evolves, -⟩ := fileForCreation_spec tidy created
    have behind := written tidy created bytes
    have filled := here.of_evolves (evolves_store evolves.tidy identity (.ofImage (.ofBytes bytes))) rfl
    have moved := rename_of_stands filled (behind.resolve.mpr resolved) short
      fun directory => plain ((behind.directories names).mpr directory)
    rw [setContent, moved] at renamed
    contradiction
  | moved created moved => rfl
  | unsure created moved named =>
    rw [parent] at named
    contradiction

end Replaced
end CheckpointStore.FileSystem
