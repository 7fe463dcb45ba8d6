import CheckpointStore.Proofs.Openings

/-!
# Stores in memory

What a call to a store does to its bytes under any plan of outcomes, and what it does without a
plan. An opening that succeeds leaves the store with the image of the handle, and without faults
every grounded image opens.
-/

namespace CheckpointStore
namespace MemoryStore

/-- A store that no call of which is going to fail. -/
def Faultless (store : MemoryStore) : Prop := store.plan = {}

variable (store : MemoryStore)

theorem answer_ok_iff {call : String} {α : Type} {result value : α} {outcome : Outcome} :
    answer call result outcome = .ok value ↔ outcome = .succeed ∧ result = value := by
  cases outcome <;> simp [answer]

theorem append_run (bytes : Bytes) :
    ∃ part rest, bytes = part ++ rest ∧ (store.append bytes).2.image = store.image ++ Image.ofBytes part ∧
      ((store.append bytes).1 = .ok () → rest = []) := by
  refine ⟨_, _, (List.take_append_drop (written bytes.length (nextOutcome store.plan.appends).1) bytes).symm, rfl, ?_⟩
  intro succeeded
  have outcome : (nextOutcome store.plan.appends).1 = .succeed := (answer_ok_iff.mp succeeded).1
  rw [outcome]
  exact List.drop_length

theorem truncate_run (size : Nat) :
    (store.truncate size).2.image = if (store.truncate size).1 = .ok () then store.image.take size else store.image := by
  have succeeded : (store.truncate size).1 = .ok () ↔ (nextOutcome store.plan.truncates).1 = .succeed :=
    answer_ok_iff.trans (and_iff_left rfl)
  simp only [succeeded]
  rfl

section Faultless

variable {store}

theorem Faultless.append (faultless : store.Faultless) (bytes : Bytes) :
    (store.append bytes).1 = .ok () ∧ (store.append bytes).2.image = store.image ++ Image.ofBytes bytes ∧
      (store.append bytes).2.Faultless := by
  have outcome : nextOutcome store.plan.appends = (.succeed, []) := by rw [faultless]; rfl
  unfold MemoryStore.append Faultless
  rw [outcome, faultless]
  exact ⟨rfl, by simp [written], rfl⟩

theorem Faultless.sync (faultless : store.Faultless) :
    (store.sync).1 = .ok () ∧ (store.sync).2.Faultless := by
  have outcome : nextOutcome store.plan.syncs = (.succeed, []) := by rw [faultless]; rfl
  unfold MemoryStore.sync Faultless
  rw [outcome, faultless]
  exact ⟨rfl, rfl⟩

theorem Faultless.readAll (faultless : store.Faultless) :
    (store.readAll).1 = .ok store.image ∧ (store.readAll).2.image = store.image ∧ (store.readAll).2.Faultless := by
  have outcome : nextOutcome store.plan.reads = (.succeed, []) := by rw [faultless]; rfl
  unfold MemoryStore.readAll Faultless
  rw [outcome, faultless]
  exact ⟨rfl, rfl, rfl⟩

end Faultless
end MemoryStore

section Run

variable {α β : Type}

theorem run_bind (first : StateM MemoryStore α) (next : α → StateM MemoryStore β) (store : MemoryStore) :
    (first >>= next) store = next (first store).1 (first store).2 := rfl

theorem run_pure (value : α) (store : MemoryStore) : (pure value : StateM MemoryStore α) store = (value, store) := rfl

end Run

namespace Handle

open MemoryStore

variable {store : MemoryStore} {mode : OpenMode} {settings : Settings}

theorem readImage_run {image : Image} (read : (readImage device mode settings store).1 = .ok image) :
    (readImage device mode settings store).2.image = image := by
  unfold readImage at read ⊢
  simp only [run_bind] at read ⊢
  cases answered : (device.readAll store).1 with
  | error error => simp [answered, run_pure] at read
  | ok found =>
    have same : store.image = found := (answer_ok_iff.mp answered).2
    simp only [answered] at read ⊢
    split
    · rename_i fresh
      simp only [fresh, if_true, run_bind] at read ⊢
      cases appended : (device.append (newImage settings).bytes (device.readAll store).2).1 with
      | error error => simp [appended, run_pure] at read
      | ok done =>
        simp only [appended, run_bind] at read ⊢
        cases synced : (device.sync (device.append (newImage settings).bytes (device.readAll store).2).2).1 with
        | error error => simp [synced, run_pure] at read
        | ok done =>
          simp only [synced, run_pure] at read ⊢
          obtain rfl := Except.ok.inj read
          -- the append went behind what was read, which was empty
          obtain ⟨part, rest, split, written, whole⟩ :=
            MemoryStore.append_run (device.readAll store).2 (newImage settings).bytes
          have empty : found.bytes = [] := by
            simp only [Image.isEmpty, Bool.and_eq_true, beq_iff_eq] at fresh
            exact List.length_eq_zero_iff.mp (found.length_bytes.trans fresh.1)
          rw [whole appended, List.append_nil] at split
          refine written.trans (Image.ext ?_)
          show (store.image ++ Image.ofBytes part).bytes = _
          rw [Image.bytes_append, same, empty, Image.bytes_ofBytes, ← split, List.nil_append]
    · rename_i kept
      simp only [kept, run_pure] at read ⊢
      exact same.trans (Except.ok.inj read)

/-- A store that has bytes is read, and nothing else. -/
theorem readImage_of_filled (mode : OpenMode) (settings : Settings) (filled : 0 < store.image.size) :
    readImage device mode settings store = store.readAll := by
  unfold readImage
  simp only [run_bind]
  cases answered : (device.readAll store).1 with
  | error error => exact Prod.ext answered.symm rfl
  | ok image =>
    obtain ⟨-, rfl⟩ := answer_ok_iff.mp answered
    have some : (store.image.isEmpty && mode == .createAndWrite) = false := by
      have nonzero : (store.image.size == 0) = false := by simp; omega
      rw [Image.isEmpty, nonzero, Bool.false_and]
    simp only [some]
    exact Prod.ext answered.symm rfl

theorem readImage_of_faultless (mode : OpenMode) (settings : Settings) (faultless : store.Faultless) (filled : 0 < store.image.size) :
    (readImage device mode settings store).1 = .ok store.image ∧
      (readImage device mode settings store).2.image = store.image ∧
      (readImage device mode settings store).2.Faultless := by
  rw [readImage_of_filled mode settings filled]
  exact faultless.readAll

/-- An opening that succeeds gives a grounded handle on the bytes that the store now has. -/
theorem of_load {handle : Handle} (opened : (load device mode settings store).1.result = .ok handle) :
    (load device mode settings store).2.image = handle.image ∧ handle.Grounded ∧
      handle = handle.reopened mode settings device.location := by
  unfold load at opened ⊢
  cases valid : settings.validate with
  | error error => simp [valid, run_pure, openFailure] at opened
  | ok done =>
    simp only [valid, run_bind] at opened ⊢
    cases read : (readImage device mode settings store).1 with
    | error error => simp [read, run_pure, openFailure] at opened
    | ok image =>
      simp only [read] at opened ⊢
      cases made : ofImage image mode settings device.location with
      | error error => simp [made, run_pure, openFailure] at opened
      | ok pair =>
        obtain ⟨found, reports⟩ := pair
        simp only [made, run_pure] at opened ⊢
        obtain rfl := Except.ok.inj opened
        obtain ⟨grounded, same, again⟩ := grounded_of_ofImage made
        exact ⟨(readImage_run read).trans same.symm, grounded, again⟩

/-- Where it is read, the image of a grounded handle opens as that handle. -/
theorem load_of_read (store : MemoryStore) {handle : Handle} (mode : OpenMode) (grounded : handle.Grounded)
    (read : (nextOutcome store.plan.reads).1 = .succeed) (image : store.image = handle.image)
    (valid : settings.validate = .ok ()) :
    (load device mode settings store).1.result = .ok (handle.reopened mode settings device.location) ∧
      (load device mode settings store).2 = store.readAll.2 := by
  have filled : 0 < store.image.size := by
    have bounds := grounded.pageSize_bounds
    rw [image]
    omega
  have answered : store.readAll.1 = .ok store.image := answer_ok_iff.mpr ⟨read, rfl⟩
  obtain ⟨events, made⟩ := ofImage_of_grounded grounded mode settings device.location
  rw [← image] at made
  unfold load
  simp only [valid, run_bind, readImage_of_filled mode settings filled, answered, made, run_pure]
  exact ⟨trivial, trivial⟩

/-- Without faults the image of a grounded handle opens as that handle. -/
theorem load_of_grounded {handle : Handle} (mode : OpenMode) (grounded : handle.Grounded) (faultless : store.Faultless)
    (image : store.image = handle.image) (valid : settings.validate = .ok ()) :
    (load device mode settings store).1.result = .ok (handle.reopened mode settings device.location) ∧
      (load device mode settings store).2.image = store.image ∧ (load device mode settings store).2.Faultless := by
  have read : (nextOutcome store.plan.reads).1 = .succeed := by
    rw [faultless]
    rfl
  obtain ⟨opened, left⟩ := load_of_read store mode grounded read image valid
  rw [left]
  exact ⟨opened, faultless.readAll.2⟩

/-- Without faults an opening comes to what the image says. -/
theorem result_load (mode : OpenMode) (faultless : store.Faultless) (filled : 0 < store.image.size)
    (valid : settings.validate = .ok ()) :
    (load device mode settings store).1.result
      = ((ofImage store.image mode settings device.location).map Prod.fst).mapError .storage := by
  have read := (readImage_of_faultless mode settings faultless filled).1
  unfold load
  simp only [valid, run_bind, read]
  cases ofImage store.image mode settings device.location <;> rfl

theorem load_of_layout_error {error : StorageError} (mode : OpenMode) (faultless : store.Faultless)
    (filled : 0 < store.image.size) (valid : settings.validate = .ok ()) (refused : Layout.load store.image = .error error) :
    (load device mode settings store).1.result = .error (.storage error) := by
  rw [result_load mode faultless filled valid, ofImage, refused]
  rfl

/-- Whatever an opening comes to, a store that has bytes keeps them. -/
theorem image_load (store : MemoryStore) (mode : OpenMode) (settings : Settings) (filled : 0 < store.image.size) :
    (load device mode settings store).2.image = store.image := by
  unfold load
  cases settings.validate with
  | error error => rfl
  | ok done =>
    simp only [run_bind, readImage_of_filled mode settings filled]
    cases store.readAll.1 with
    | error error => rfl
    | ok image =>
      dsimp only
      cases ofImage image mode settings device.location with
      | error error => rfl
      | ok pair => rfl

/-- Without faults every opening of the image succeeds, in any mode and with any settings that are
accepted, and what it gives has a property. -/
def Opens (image : Image) (holds : Handle → MemoryStore → Prop) : Prop :=
  ∀ mode settings, settings.validate = .ok () →
    ∃ handle, (load device mode settings { image }).1.result = .ok handle ∧
      holds handle (load device mode settings { image }).2

theorem opens_of_grounded {handle : Handle} (grounded : handle.Grounded) {holds : Handle → MemoryStore → Prop}
    (found : ∀ mode settings location after, after.image = handle.image → after.Faultless →
      holds (handle.reopened mode settings location) after) : Opens handle.image holds := by
  intro mode settings valid
  have fresh : MemoryStore.Faultless { image := handle.image } := rfl
  obtain ⟨opened, same, faultless⟩ := load_of_grounded mode grounded fresh rfl valid
  exact ⟨_, opened, found mode settings _ _ same faultless⟩

/-! ### New databases -/

def new (settings : Settings) : Handle where
  image := newImage settings
  header := Header.ofPageSize settings.pageSize
  current := none
  checkpoints := []
  index := LiveIndex.empty
  staged := KeyMap.empty
  recovery := .clean
  access := .write
  settings := settings
  location := device.location
  poisoned := false

theorem isPageSize_of_validate (valid : settings.validate = .ok ()) : isPageSize settings.pageSize = true := by
  unfold Settings.validate at valid
  split at valid
  · rename_i sized
    exact sized
  · contradiction

theorem size_newImage (settings : Settings) : (newImage settings).size = settings.pageSize := by
  rw [newImage, Image.size_ofBytes, Header.length_encode]
  rfl

theorem grounded_new (valid : settings.validate = .ok ()) : (new settings).Grounded := by
  have sized := isPageSize_of_validate valid
  have positive := (pageSize_pos sized).1
  refine ⟨Header.decode_encode sized, nofun, fun _ => ?_, ⟨[], .header, rfl⟩, ?_⟩
  · show (newImage settings).size / settings.pageSize = 1
    rw [size_newImage]
    exact Nat.div_self (by omega)
  · show LiveIndex.build _ _ 0 = _
    rw [LiveIndex.build, chain_zero]
    rfl

/-- Creating a database on an empty store gives the new handle, where the calls it takes succeed. -/
theorem load_new (plan : Plan) (valid : settings.validate = .ok ())
    (read : (nextOutcome plan.reads).1 = .succeed) (append : (nextOutcome plan.appends).1 = .succeed)
    (sync : (nextOutcome plan.syncs).1 = .succeed) :
    (load device .createAndWrite settings { plan }).1.result = .ok (new settings) ∧
      (load device .createAndWrite settings { plan }).2.plan =
        { plan with
          reads := (nextOutcome plan.reads).2
          appends := (nextOutcome plan.appends).2
          syncs := (nextOutcome plan.syncs).2 } := by
  have answered : (device.readAll { plan }).1 = .ok .empty := answer_ok_iff.mpr ⟨read, rfl⟩
  have appended : (device.append (newImage settings).bytes (device.readAll { plan }).2).1 = .ok () :=
    answer_ok_iff.mpr ⟨append, rfl⟩
  have synced : (device.sync (device.append (newImage settings).bytes (device.readAll { plan }).2).2).1 = .ok () :=
    answer_ok_iff.mpr ⟨sync, rfl⟩
  have fresh : (Image.empty.isEmpty && OpenMode.createAndWrite == .createAndWrite) = true := rfl
  obtain ⟨events, made⟩ := ofImage_of_grounded (grounded_new valid) .createAndWrite settings device.location
  replace made : ofImage (newImage settings) .createAndWrite settings device.location = _ := made
  have clean : (new settings).reopened .createAndWrite settings device.location = new settings := by
    have whole : Recovery.past (newImage settings).size settings.pageSize = .clean := if_pos (size_newImage settings).symm
    unfold reopened
    show ({ new settings with recovery := Recovery.past (newImage settings).size settings.pageSize } : Handle) = _
    rw [whole]
    rfl
  unfold load readImage
  simp only [valid, run_bind, answered, fresh, if_true, appended, synced, run_pure, made, clean]
  exact ⟨trivial, rfl⟩

end Handle
end CheckpointStore
