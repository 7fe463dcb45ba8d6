import CheckpointStore.Proofs.Histories
import CheckpointStore.Proofs.Refusals

/-!
# Failed openings

An opening writes to its store only to give an empty one a header, by one append and one sync. Where
either fails, the bytes that were appended stay behind: a whole header page is found again as the empty
database, and a part of one is a store that every later opening refuses.
-/

namespace CheckpointStore
namespace Handle

open MemoryStore

variable {store : MemoryStore} {mode : OpenMode} {settings : Settings}

/-- The opening comes to the append of a header. -/
structure Creates (store : MemoryStore) (mode : OpenMode) (settings : Settings) : Prop where
  accepted : settings.validate = .ok ()
  mode : mode = .createAndWrite
  empty : store.image.size = 0
  read : (nextOutcome store.plan.reads).1 = .succeed

/-- How many bytes of the header the next append to the store writes. -/
def headed (store : MemoryStore) (settings : Settings) : Nat :=
  written settings.pageSize (nextOutcome store.plan.appends).1

/-- A database without checkpoints. -/
structure Vacant (handle : Handle) : Prop where
  checkpoint : handle.checkpoint = 0
  history : handle.history = []
  documents : handle.documents = []

theorem headed_le (store : MemoryStore) (settings : Settings) : headed store settings ≤ settings.pageSize := by
  unfold headed written
  split <;> omega

theorem size_take_newImage (settings : Settings) {count : Nat} (le : count ≤ settings.pageSize) :
    ((newImage settings).take count).size = count := by
  rw [← Image.length_bytes, Image.bytes_take, List.length_take, Image.length_bytes, size_newImage]
  omega

namespace Creates

theorem bytes (creates : Creates store mode settings) : store.image.bytes = [] :=
  List.length_eq_zero_iff.mp (store.image.length_bytes.trans creates.empty)

theorem answered (creates : Creates store mode settings) : (device.readAll store).1 = .ok store.image :=
  answer_ok_iff.mpr ⟨creates.read, rfl⟩

theorem fresh (creates : Creates store mode settings) : (store.image.isEmpty && mode == .createAndWrite) = true := by
  rw [Image.isEmpty, creates.empty, creates.mode]
  rfl

end Creates

/-! ### What an opening writes -/

/-- Past the append nothing touches the bytes of the store. -/
theorem image_readImage_of_creates (creates : Creates store mode settings) :
    (readImage device mode settings store).2.image = (newImage settings).take (headed store settings) := by
  have appended : (device.append (newImage settings).bytes (device.readAll store).2).2.image
      = (newImage settings).take (headed store settings) := by
    show store.image ++ Image.ofBytes ((newImage settings).bytes.take (written (newImage settings).bytes.length _)) = _
    refine Image.ext ?_
    rw [Image.bytes_append, creates.bytes, Image.bytes_ofBytes, Image.length_bytes, size_newImage, Image.bytes_take]
    rfl
  unfold readImage
  simp only [run_bind, creates.answered, creates.fresh, if_true]
  cases (device.append (newImage settings).bytes (device.readAll store).2).1 with
  | error error => exact appended
  | ok done =>
    simp only [run_bind]
    cases (device.sync (device.append (newImage settings).bytes (device.readAll store).2).2).1 with
    | error error => exact appended
    | ok done => exact appended

theorem image_readImage_of_kept (accepted : settings.validate = .ok ()) (kept : ¬ Creates store mode settings) :
    (readImage device mode settings store).2.image = store.image := by
  unfold readImage
  simp only [run_bind]
  cases answered : (device.readAll store).1 with
  | error error => rfl
  | ok found =>
    obtain ⟨read, rfl⟩ := answer_ok_iff.mp answered
    have old : (store.image.isEmpty && mode == .createAndWrite) = false := by
      refine Bool.eq_false_iff.mpr fun fresh => kept ?_
      obtain ⟨empty, create⟩ := Bool.and_eq_true_iff.mp fresh
      exact ⟨accepted, eq_of_beq create, eq_of_beq empty, read⟩
    simp only [old]
    rfl

theorem image_load_of_accepted (accepted : settings.validate = .ok ()) :
    (load device mode settings store).2.image = (readImage device mode settings store).2.image := by
  unfold load
  simp only [accepted, run_bind]
  cases (readImage device mode settings store).1 with
  | error error => rfl
  | ok image =>
    dsimp only
    cases ofImage image mode settings device.location with
    | error error => rfl
    | ok pair => rfl

/-- Whatever an opening comes to, it leaves so much of a header in an empty store that it was to make
a database of, and any other store as it was. -/
theorem image_load_cases (store : MemoryStore) (mode : OpenMode) (settings : Settings) :
    Creates store mode settings ∧
        (load device mode settings store).2.image = (newImage settings).take (headed store settings) ∨
      ¬ Creates store mode settings ∧ (load device mode settings store).2.image = store.image := by
  by_cases creates : Creates store mode settings
  · exact .inl ⟨creates, (image_load_of_accepted creates.accepted).trans (image_readImage_of_creates creates)⟩
  · refine .inr ⟨creates, ?_⟩
    cases valid : settings.validate with
    | error error =>
      unfold load
      rw [valid]
      rfl
    | ok done => exact (image_load_of_accepted valid).trans (image_readImage_of_kept valid creates)

theorem answer_error {call : String} {α : Type} {result : α} {outcome : Outcome} {error : StorageError}
    (failed : answer call result outcome = .error error) : error = refusal call := by
  cases outcome with
  | succeed => exact nomatch failed
  | fail => exact (Except.error.inj failed).symm
  | short count => exact (Except.error.inj failed).symm

/-- Once a header is to be written, only its append and its sync can fail. -/
theorem refused_of_creates (creates : Creates store mode settings) {error : DatabaseError}
    (failed : (load device mode settings store).1.result = .error error) :
    error = .storage (refusal "append") ∨ error = .storage (refusal "sync") := by
  unfold load readImage at failed
  simp only [creates.accepted, run_bind, creates.answered, creates.fresh, if_true] at failed
  cases append : (device.append (newImage settings).bytes (device.readAll store).2).1 with
  | error refused =>
    rw [append] at failed
    exact .inl ((Except.error.inj failed).symm.trans (congrArg DatabaseError.storage (answer_error append)))
  | ok done =>
    simp only [append, run_bind] at failed
    cases sync : (device.sync (device.append (newImage settings).bytes (device.readAll store).2).2).1 with
    | error refused =>
      rw [sync] at failed
      exact .inr ((Except.error.inj failed).symm.trans (congrArg DatabaseError.storage (answer_error sync)))
    | ok done =>
      obtain ⟨events, made⟩ := ofImage_of_grounded (grounded_new creates.accepted) mode settings device.location
      replace made : ofImage (newImage settings) mode settings device.location = _ := made
      simp only [sync, run_pure, made] at failed
      exact nomatch failed

/-! ### Opening what was left -/

theorem vacant_new (settings : Settings) : (new settings).Vacant := ⟨rfl, rfl, documents_new settings⟩

/-- A header page is opened as the database that was to be made. -/
theorem load_newImage (accepted : settings.validate = .ok ()) {again : Settings} (valid : again.validate = .ok ())
    (mode : OpenMode) :
    ∃ handle, (load device mode again { image := newImage settings }).1.result = .ok handle ∧ handle.Vacant := by
  have faultless : MemoryStore.Faultless { image := newImage settings } := rfl
  obtain ⟨opened, -⟩ := load_of_grounded mode (grounded_new accepted) faultless rfl valid
  exact ⟨_, opened, ⟨rfl, rfl, documents_new settings⟩⟩

theorem load_empty {again : Settings} (valid : again.validate = .ok ()) :
    ∃ handle, (load device .createAndWrite again {}).1.result = .ok handle ∧ handle.Vacant :=
  ⟨_, (load_new {} valid rfl rfl rfl).1, vacant_new again⟩

/-- A part of a header page is no header, whatever the header says of the page. -/
theorem decode_torn_header (accepted : settings.validate = .ok ()) {count : Nat} (short : count < settings.pageSize)
    (header : Header) : Header.decode ((newImage settings).take count) ≠ .ok header := by
  intro decoded
  have size := size_take_newImage settings (Nat.le_of_lt short)
  have fits : header.pageSize ≤ count := by
    obtain ⟨-, -, inside, -⟩ := Header.decode_ok_iff.mp decoded
    omega
  have agree : Image.Agree count ((newImage settings).take count) (newImage settings) := by
    refine ⟨by omega, by rw [size_newImage]; omega, ?_⟩
    rw [Image.bytes_take, List.take_take, Nat.min_self]
  have whole := Header.decode_agree agree decoded fits
  rw [newImage, Header.decode_encode (isPageSize_of_validate accepted)] at whole
  obtain rfl := Except.ok.inj whole
  have page : settings.pageSize ≤ count := fits
  omega

theorem load_torn_header (accepted : settings.validate = .ok ()) {count : Nat} (begun : 0 < count)
    (short : count < settings.pageSize) {again : Settings} (valid : again.validate = .ok ()) (mode : OpenMode) :
    ∃ error, (load device mode again { image := (newImage settings).take count }).1.result = .error error ∧
      error.severity = .fatal := by
  have faultless : MemoryStore.Faultless { image := (newImage settings).take count } := rfl
  have filled : 0 < ((newImage settings).take count).size := by
    rw [size_take_newImage settings (Nat.le_of_lt short)]
    exact begun
  cases decoded : Header.decode ((newImage settings).take count) with
  | ok header => exact absurd decoded (decode_torn_header accepted short header)
  | error error =>
    have refused : Layout.load ((newImage settings).take count) = .error error := by
      unfold Layout.load
      rw [decoded]
    refine ⟨.storage error, load_of_layout_error mode faultless filled valid refused, ?_⟩
    exact Header.fatal_decode _ _ decoded

/-- What is left of a header is opened as the empty database when it is nothing or the whole of it, and
else is refused. -/
theorem load_left_header (accepted : settings.validate = .ok ()) {count : Nat} (le : count ≤ settings.pageSize)
    {again : Settings} (valid : again.validate = .ok ()) :
    (count = 0 ∨ count = settings.pageSize →
        ∃ handle, (load device .createAndWrite again { image := (newImage settings).take count }).1.result = .ok handle ∧
          handle.Vacant) ∧
      (¬ (count = 0 ∨ count = settings.pageSize) →
        ∃ error, (load device .createAndWrite again { image := (newImage settings).take count }).1.result = .error error ∧
          error.severity = .fatal) := by
  constructor
  · rintro (rfl | rfl)
    · have nothing : (newImage settings).take 0 = Image.empty := Image.ext (by simp)
      rw [nothing]
      exact load_empty valid
    · have whole : (newImage settings).take settings.pageSize = newImage settings := by
        refine Image.ext ?_
        rw [Image.bytes_take, List.take_of_length_le (by rw [Image.length_bytes, size_newImage])]
      rw [whole]
      exact load_newImage accepted valid .createAndWrite
  · intro torn
    exact load_torn_header accepted (by omega) (by omega) valid .createAndWrite

/-! ### Failed openings -/

/-- An opening that fails leaves its store as it was unless it appended to it, where the append or the
sync behind it failed, and an empty store stays fit for a database unless a part of a header was left in
it: then it is refused for good. -/
theorem failed_open_undone_iff {error : DatabaseError} (failed : (load device mode settings store).1.result = .error error) :
    ((load device mode settings store).2.image = store.image ↔
        ¬ (Creates store mode settings ∧ 0 < headed store settings)) ∧
      (Creates store mode settings → error = .storage (refusal "append") ∨ error = .storage (refusal "sync")) ∧
      (mode = .createAndWrite → store.image.size = 0 → ∀ again : Settings, again.validate = .ok () →
        ((∃ handle, (load device .createAndWrite again { image := (load device mode settings store).2.image }).1.result
              = .ok handle ∧ handle.Vacant) ↔
            ¬ (Creates store mode settings ∧ 0 < headed store settings ∧ headed store settings < settings.pageSize)) ∧
          ((Creates store mode settings ∧ 0 < headed store settings ∧ headed store settings < settings.pageSize) →
            ∃ error, (load device .createAndWrite again { image := (load device mode settings store).2.image }).1.result
              = .error error ∧ error.severity = .fatal)) := by
  have most := headed_le store settings
  rcases image_load_cases store mode settings with ⟨creates, left⟩ | ⟨kept, same⟩
  · rw [left]
    refine ⟨?_, fun creates => refused_of_creates creates failed, fun create empty again valid => ?_⟩
    · have size := size_take_newImage settings most
      constructor
      · rintro same ⟨-, begun⟩
        rw [same, creates.empty] at size
        omega
      · intro none
        have zero : headed store settings = 0 := by
          by_contra begun
          exact none ⟨creates, Nat.pos_of_ne_zero begun⟩
        refine Image.ext ?_
        rw [zero, Image.bytes_take, List.take_zero, creates.bytes]
    · obtain ⟨opens, torn⟩ := load_left_header creates.accepted most valid
      refine ⟨⟨?_, fun intact => opens ?_⟩, fun part => torn (by have := part.2; omega)⟩
      · rintro ⟨handle, opened, -⟩ part
        have inside := part.2
        obtain ⟨refusal, refused, -⟩ := torn (by omega)
        exact nomatch refused.symm.trans opened
      · by_contra part
        exact intact ⟨creates, by omega, by omega⟩
  · rw [same]
    refine ⟨⟨fun _ creates => kept creates.1, fun _ => rfl⟩, fun creates => absurd creates kept,
      fun create empty again valid => ?_⟩
    have nothing : store.image = Image.empty :=
      Image.ext (List.length_eq_zero_iff.mp (store.image.length_bytes.trans empty))
    rw [nothing]
    exact ⟨⟨fun _ creates => kept creates.1, fun _ => load_empty valid⟩, fun creates => absurd creates.1 kept⟩

/-- The sync behind the header fails: the opening does, and leaves a header page in a store that was
empty, which then opens as the empty database. -/
theorem header_left_by_failed_sync :
    (load device .createAndWrite { pageSize := 512 } { plan := { syncs := [.fail] } }).1.result
        = .error (.storage (refusal "sync")) ∧
      (load device .createAndWrite { pageSize := 512 } { plan := { syncs := [.fail] } }).2.image ≠ Image.empty ∧
      ∃ handle, (load device .createAndWrite {}
          { image := (load device .createAndWrite { pageSize := 512 } { plan := { syncs := [.fail] } }).2.image }).1.result
        = .ok handle ∧ handle.Vacant := by
  have failed : (load device .createAndWrite { pageSize := 512 } { plan := { syncs := [.fail] } }).1.result
      = .error (.storage (refusal "sync")) := rfl
  have creates : Creates { plan := { syncs := [.fail] } } .createAndWrite { pageSize := 512 } := ⟨rfl, rfl, rfl, rfl⟩
  have whole : headed { plan := { syncs := [.fail] } } { pageSize := 512 } = 512 := rfl
  obtain ⟨changed, -, again⟩ := failed_open_undone_iff failed
  refine ⟨failed, fun same => changed.mp same ⟨creates, by omega⟩, (again rfl rfl {} rfl).1.mpr ?_⟩
  rintro ⟨-, -, short⟩
  exact absurd short (by decide)

/-- The append of the header stops after five bytes: the opening fails, the store that was empty holds
them, and no database can be made in it any more. -/
theorem torn_header_stops_creation :
    (load device .createAndWrite { pageSize := 512 } { plan := { appends := [.short 5] } }).1.result
        = .error (.storage (refusal "append")) ∧
      (load device .createAndWrite { pageSize := 512 } { plan := { appends := [.short 5] } }).2.image.size = 5 ∧
      ∃ error, (load device .createAndWrite { pageSize := 512 }
          { image := (load device .createAndWrite { pageSize := 512 } { plan := { appends := [.short 5] } }).2.image }).1.result
        = .error error ∧ error.severity = .fatal := by
  have creates : Creates { plan := { appends := [.short 5] } } .createAndWrite { pageSize := 512 } := ⟨rfl, rfl, rfl, rfl⟩
  have five : headed { plan := { appends := [.short 5] } } { pageSize := 512 } = 5 := rfl
  have left := (image_load_of_accepted creates.accepted).trans (image_readImage_of_creates creates)
  rw [five] at left
  rw [left]
  exact ⟨rfl, size_take_newImage _ (by decide), load_torn_header rfl (by decide) (by decide) rfl .createAndWrite⟩

end Handle
end CheckpointStore
