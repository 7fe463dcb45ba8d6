import CheckpointStore.Device.Memory
import CheckpointStore.Handle.Load
import CheckpointStore.Proofs.Layouts

/-!
# Opening

A handle is grounded when opening its image finds what it holds. Whatever is opened is grounded,
and a grounded handle is what every opening of its image gives again, with nothing staged. What
is put behind the image changes what is found exactly when it closes a valid checkpoint.
-/

namespace CheckpointStore
namespace Handle

/-- Where the part of the image that the handle makes use of ends. -/
def validEnd (handle : Handle) : Nat := (handle.current.map Trailer.checkpointSize).getD handle.pageSize

/-- The handle holds what its image says. -/
structure Grounded (handle : Handle) : Prop where
  header : Header.decode handle.image = .ok handle.header
  current : ∀ trailer, handle.current = some trailer → Newest handle.image handle.pageSize trailer
  fresh : handle.current = none → handle.image.size / handle.pageSize = 1
  walk : ∃ trailers, Walk handle.image handle.pageSize handle.checkpoint trailers ∧
    handle.history = trailers.map Trailer.checkpointSize
  index : LiveIndex.build handle.image handle.pageSize handle.checkpoint = .ok handle.index

/-- The handle as a new opening of its image gives it. -/
def reopened (handle : Handle) (mode : OpenMode) (settings : Settings) (location : String) : Handle :=
  { handle with
    staged := KeyMap.empty
    recovery := Recovery.past handle.image.size handle.validEnd
    access := accessOf mode
    settings, location
    poisoned := false }

theorem Grounded.of_same {a b : Handle} (grounded : a.Grounded) (image : b.image = a.image) (header : b.header = a.header)
    (current : b.current = a.current) (checkpoints : b.checkpoints = a.checkpoints) (index : b.index = a.index) :
    b.Grounded := by
  have page : b.pageSize = a.pageSize := congrArg Header.pageSize header
  have checkpoint : b.checkpoint = a.checkpoint := by rw [Handle.checkpoint, current, ← Handle.checkpoint]
  have history : b.history = a.history := congrArg List.reverse checkpoints
  refine ⟨?_, ?_, ?_, ?_, ?_⟩
  · rw [image, header, grounded.header]
  · rw [image, page, current]
    exact grounded.current
  · rw [image, page, current]
    exact grounded.fresh
  · rw [image, page, checkpoint, history]
    exact grounded.walk
  · rw [image, page, checkpoint, index, grounded.index]

theorem Grounded.pageSize_bounds {handle : Handle} (grounded : handle.Grounded) :
    isPageSize handle.pageSize = true ∧ 512 ≤ handle.pageSize ∧ handle.pageSize ≤ handle.image.size := by
  obtain ⟨-, sized, inside, -⟩ := Header.decode_ok_iff.mp grounded.header
  exact ⟨sized, (pageSize_pos sized).1, inside⟩

theorem checkpoint_of_current {handle : Handle} {trailer : Trailer} (current : handle.current = some trailer) :
    handle.checkpoint = trailer.checkpointSize := by
  rw [checkpoint, current]
  rfl

theorem checkpoint_of_fresh {handle : Handle} (current : handle.current = none) : handle.checkpoint = 0 := by
  rw [checkpoint, current]
  rfl

theorem Grounded.checkpoint_bounds {handle : Handle} (grounded : handle.Grounded) {trailer : Trailer}
    (current : handle.current = some trailer) :
    handle.pageSize + 40 ≤ trailer.checkpointSize ∧ trailer.checkpointSize ≤ handle.image.size ∧
      trailer.checkpointSize % handle.pageSize = 0 :=
  (stop_of_valid (grounded.current trailer current).valid).2

theorem Grounded.checkpoint_le {handle : Handle} (grounded : handle.Grounded) : handle.checkpoint ≤ handle.image.size := by
  cases current : handle.current with
  | none =>
    rw [checkpoint_of_fresh current]
    exact Nat.zero_le _
  | some trailer =>
    rw [checkpoint_of_current current]
    exact (grounded.checkpoint_bounds current).2.1

theorem Grounded.checkpoint_eq_zero_iff {handle : Handle} (grounded : handle.Grounded) :
    handle.checkpoint = 0 ↔ handle.current = none := by
  cases current : handle.current with
  | none => simp [checkpoint_of_fresh current]
  | some trailer =>
    have past := (grounded.checkpoint_bounds current).1
    simp only [checkpoint_of_current current, reduceCtorEq, iff_false]
    omega

theorem Grounded.current_of_committed {handle : Handle} (grounded : handle.Grounded) (committed : handle.checkpoint ≠ 0) :
    ∃ trailer, handle.current = some trailer :=
  Option.ne_none_iff_exists'.mp (mt grounded.checkpoint_eq_zero_iff.mpr committed)

theorem Grounded.validEnd_of_committed {handle : Handle} (grounded : handle.Grounded) (committed : handle.checkpoint ≠ 0) :
    handle.validEnd = handle.checkpoint := by
  obtain ⟨trailer, current⟩ := grounded.current_of_committed committed
  rw [validEnd, checkpoint, current]
  rfl

/-- An image says one thing: the grounded handles on it differ in nothing that it holds. -/
theorem Grounded.unique {a b : Handle} (first : a.Grounded) (second : b.Grounded) (image : b.image = a.image) :
    b.header = a.header ∧ b.current = a.current ∧ b.checkpoints = a.checkpoints ∧ b.index = a.index := by
  have header : b.header = a.header := by
    have decoded := second.header
    rw [image, first.header] at decoded
    exact (Except.ok.inj decoded).symm
  have page : b.pageSize = a.pageSize := congrArg Header.pageSize header
  -- a boundary past the header is a second page, and a fresh file has only one
  have apart {fresh committed : Handle} (one : fresh.Grounded) (two : committed.Grounded) (same : fresh.image = committed.image)
      (paged : fresh.pageSize = committed.pageSize) (none : fresh.current = none) {trailer : Trailer}
      (some : committed.current = some trailer) : False := by
    have single := one.fresh none
    obtain ⟨page, -, many, inside⟩ := page_of_valid (by have := two.pageSize_bounds; omega) (two.current trailer some).valid
    rw [← same, ← paged] at inside
    omega
  have current : b.current = a.current := by
    cases here : a.current with
    | none =>
      cases there : b.current with
      | none => rfl
      | some trailer => exact (apart first second image.symm page.symm here there).elim
    | some trailer =>
      cases there : b.current with
      | none => exact (apart second first image page there here).elim
      | some other =>
        have newest := second.current other there
        rw [image, page] at newest
        rw [newest.unique (first.current trailer here)]
  have checkpoint : b.checkpoint = a.checkpoint := by rw [Handle.checkpoint, current, ← Handle.checkpoint]
  refine ⟨header, current, ?_, ?_⟩
  · obtain ⟨trailers, walk, history⟩ := first.walk
    obtain ⟨others, again, listed⟩ := second.walk
    rw [image, page, checkpoint] at again
    obtain rfl := walk.unique again
    exact List.reverse_injective (listed.trans history.symm)
  · have index := second.index
    rw [image, page, checkpoint, first.index] at index
    exact (Except.ok.inj index).symm

/-- Loading the image of a grounded handle finds the handle's header and its current checkpoint. -/
theorem Grounded.load {handle : Handle} (grounded : handle.Grounded) :
    ∃ layout, Layout.load handle.image = .ok layout ∧ layout.header = handle.header ∧ layout.current = handle.current := by
  cases current : handle.current with
  | none => exact Layout.load_of_fresh grounded.header (grounded.fresh current)
  | some trailer => exact Layout.load_of_newest grounded.header (grounded.current trailer current)

/-- Opening the image of a grounded handle gives the handle again. -/
theorem ofImage_of_grounded {handle : Handle} (grounded : handle.Grounded) (mode : OpenMode) (settings : Settings)
    (location : String) :
    ∃ events, ofImage handle.image mode settings location = .ok (handle.reopened mode settings location, events) := by
  obtain ⟨layout, loaded, header, current⟩ := grounded.load
  obtain ⟨trailers, walk, history⟩ := grounded.walk
  have walked := chain_ok_iff.mpr walk
  have indexed := grounded.index
  have recovery := (Layout.found_of_load loaded).recovery
  have stop : (layout.current.map Trailer.checkpointSize).getD 0 = handle.checkpoint := by
    rw [current]
    rfl
  have valid : layout.validEnd = handle.validEnd := by
    rw [Layout.validEnd, header, current]
    rfl
  have checkpoints : (trailers.map Trailer.checkpointSize).reverse = handle.checkpoints := by
    rw [← history, Handle.history, List.reverse_reverse]
  unfold ofImage
  simp only [loaded, stop]
  rw [header]
  unfold pageSize at walked indexed
  simp only [walked, indexed, checkpoints, current, recovery, valid]
  exact ⟨_, rfl⟩

/-- Whatever is opened is grounded, and is as any other opening gives it. -/
theorem grounded_of_ofImage {image : Image} {mode : OpenMode} {settings : Settings} {location : String} {handle : Handle}
    {events : List Event} (opened : ofImage image mode settings location = .ok (handle, events)) :
    handle.Grounded ∧ handle.image = image ∧ handle = handle.reopened mode settings location := by
  unfold ofImage at opened
  split at opened
  · contradiction
  rename_i layout loaded
  dsimp only at opened
  split at opened
  · contradiction
  rename_i trailers walked
  split at opened
  · contradiction
  rename_i index indexed
  obtain ⟨rfl, -⟩ := Prod.mk.inj (Except.ok.inj opened)
  have found := Layout.found_of_load loaded
  refine ⟨⟨found.header, found.current, found.fresh, ⟨trailers, chain_ok_iff.mp walked, ?_⟩, indexed⟩, rfl, ?_⟩
  · exact List.reverse_reverse _
  · rw [found.recovery]
    rfl

/-! ### Bytes behind the image -/

def behind (handle : Handle) (rest : Image) : Handle := { handle with image := handle.image ++ rest }

section Behind

variable {handle : Handle} {rest : Image}

theorem Grounded.validate_behind (pageSize : Nat) {stop : Nat} (le : stop ≤ handle.image.size) :
    validateCheckpoint (handle.image ++ rest) stop pageSize = validateCheckpoint handle.image stop pageSize :=
  (validateCheckpoint_agree (Image.agree_append handle.image rest) le).symm

theorem Grounded.parts_behind (grounded : handle.Grounded) (rest : Image) :
    Header.decode (handle.image ++ rest) = .ok handle.header ∧
      (∃ trailers, Walk (handle.image ++ rest) handle.pageSize handle.checkpoint trailers ∧
        handle.history = trailers.map Trailer.checkpointSize) ∧
      LiveIndex.build (handle.image ++ rest) handle.pageSize handle.checkpoint = .ok handle.index := by
  have agree := Image.agree_append handle.image rest
  have inside := grounded.checkpoint_le
  obtain ⟨trailers, walk, history⟩ := grounded.walk
  refine ⟨Header.decode_agree agree grounded.header grounded.pageSize_bounds.2.2, ⟨trailers, ?_, history⟩, ?_⟩
  · rw [← chain_ok_iff, ← chain_agree agree inside, chain_ok_iff]
    exact walk
  · rw [← LiveIndex.build_agree agree inside, grounded.index]

/-- A committed database is found again behind which no boundary validates, and only then. -/
theorem grounded_behind_iff (grounded : handle.Grounded) (committed : handle.checkpoint ≠ 0) :
    (handle.behind rest).Grounded ↔
      ∀ stop trailer, handle.image.size < stop →
        validateCheckpoint (handle.image ++ rest) stop handle.pageSize ≠ .ok trailer := by
  obtain ⟨trailer, current⟩ := grounded.current_of_committed committed
  have newest := grounded.current trailer current
  have inside := (grounded.checkpoint_bounds current).2.1
  constructor
  · intro whole stop later above valid
    have below := (whole.current trailer current).newest stop later valid
    omega
  · intro refused
    obtain ⟨header, walk, index⟩ := grounded.parts_behind rest
    refine ⟨header, ?_, ?_, walk, index⟩
    · intro other same
      obtain rfl : trailer = other := Option.some.inj (current.symm.trans same)
      refine ⟨(Grounded.validate_behind _ inside).trans newest.valid, ?_⟩
      intro stop later valid
      rcases Nat.lt_or_ge handle.image.size stop with above | old
      · exact absurd valid (refused stop later above)
      · exact newest.newest stop later ((Grounded.validate_behind _ old).symm.trans valid)
    · intro none
      exact absurd (current.symm.trans none) nofun

/-- A database that was never committed is found again as long as no boundary is reached. -/
theorem grounded_behind_fresh_iff (grounded : handle.Grounded) (fresh : handle.checkpoint = 0) :
    (handle.behind rest).Grounded ↔ handle.image.size + rest.size < 2 * handle.pageSize := by
  have current := grounded.checkpoint_eq_zero_iff.mp fresh
  have bounds := grounded.pageSize_bounds
  have page : handle.image.size + rest.size < 2 * handle.pageSize ↔
      (handle.image ++ rest).size / handle.pageSize = 1 := by
    rw [Image.size_append, Nat.div_eq_iff (by omega)]
    omega
  rw [page]
  constructor
  · intro whole
    exact whole.fresh current
  · intro one
    obtain ⟨header, walk, index⟩ := grounded.parts_behind rest
    refine ⟨header, ?_, fun _ => one, walk, index⟩
    intro trailer some
    exact absurd (current.symm.trans some) nofun

end Behind
end Handle
end CheckpointStore
