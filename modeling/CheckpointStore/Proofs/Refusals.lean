import CheckpointStore.Proofs.Stores

/-!
# What refuses an image

Every reader of an image refuses it with a fatal error and no other: an image is either what its
header and its newest checkpoint say, or it is not to be trusted at all.
-/

namespace CheckpointStore

/-- The result is no error but a fatal one. -/
def Fatal {α : Type} (result : Except StorageError α) : Prop := ∀ error, result = .error error → error.severity = .fatal

namespace Fatal

variable {α : Type} {error : StorageError}

theorem ok (value : α) : Fatal (.ok value) := nofun

theorem refusal (severe : error.severity = .fatal) : Fatal (.error error : Except StorageError α) := by
  rintro _ ⟨⟩
  exact severe

theorem check {failed : Prop} [Decidable failed] {rest : Except StorageError α} (severe : error.severity = .fatal)
    (behind : Fatal rest) : Fatal (if failed then .error error else rest) := by
  split
  · exact refusal severe
  · exact behind

end Fatal

theorem Header.fatal_decode (image : Image) : Fatal (decode image) := by
  unfold decode
  exact .check rfl (.check rfl (.check rfl (.check rfl (.check rfl (.check rfl (.ok _))))))

theorem Trailer.fatal_readEndingAt (image : Image) (stop pageSize : Nat) : Fatal (readEndingAt image stop pageSize) := by
  unfold readEndingAt
  exact .check rfl (.check rfl (.check rfl (.check rfl (.check rfl (.check rfl (.check rfl (.ok _)))))))

theorem Block.fatal_decode (window : Bytes) (offset : Nat) : Fatal (decode window offset) := by
  unfold decode
  refine .check rfl (.check rfl (.check rfl ?_))
  split
  · exact .refusal rfl
  · exact .check rfl (.check rfl (.check rfl (.ok _)))

theorem fatal_readBlocks (count : Nat) (window : Bytes) (offset : Nat) : Fatal (readBlocks count window offset) := by
  induction count generalizing window offset with
  | zero => exact .ok _
  | succ count ih =>
    rw [readBlocks]
    split
    · rename_i first
      exact .refusal (Block.fatal_decode window offset _ first)
    · split
      · rename_i later
        exact .refusal (ih _ _ _ later)
      · exact .ok _

theorem fatal_chain (image : Image) (pageSize stop : Nat) : Fatal (chain image pageSize stop) := by
  intro error refused
  obtain ⟨place, -, read⟩ := refused_of_chain refused
  exact Trailer.fatal_readEndingAt image place pageSize error read

namespace LiveIndex

theorem fatal_applyAll (image : Image) (trailers : List Trailer) (index : LiveIndex) :
    Fatal (applyAll image trailers index) := by
  induction trailers generalizing index with
  | nil => exact .ok _
  | cons trailer rest ih =>
    rw [applyAll, apply]
    cases parsed : trailer.blocks image with
    | error error => exact .refusal (fatal_readBlocks _ _ _ _ parsed)
    | ok blocks => exact ih _

theorem fatal_build (image : Image) (pageSize stop : Nat) : Fatal (build image pageSize stop) := by
  unfold build
  split
  · rename_i walked
    exact .refusal (fatal_chain image pageSize stop _ walked)
  · exact fatal_applyAll _ _ _

end LiveIndex

theorem Layout.fatal_load (image : Image) : Fatal (load image) := by
  unfold load
  split
  · rename_i refused
    exact .refusal (Header.fatal_decode image _ refused)
  dsimp only
  split
  · exact .ok _
  · split
    · exact .ok _
    · exact .refusal rfl

namespace Handle

theorem fatal_ofImage (image : Image) (mode : OpenMode) (settings : Settings) (location : String) :
    Fatal (ofImage image mode settings location) := by
  unfold ofImage
  split
  · rename_i refused
    exact .refusal (Layout.fatal_load image _ refused)
  dsimp only
  split
  · rename_i walked
    exact .refusal (fatal_chain _ _ _ _ walked)
  split
  · rename_i built
    exact .refusal (LiveIndex.fatal_build _ _ _ _ built)
  · exact .ok _

open MemoryStore

/-- Without faults, and with settings that are accepted, an opening succeeds or is refused fatally. -/
theorem opened_or_fatal {store : MemoryStore} {settings : Settings} (mode : OpenMode) (faultless : store.Faultless)
    (filled : 0 < store.image.size) (valid : settings.validate = .ok ()) :
    (∃ handle, (load device mode settings store).1.result = .ok handle) ∨
      ∃ error, (load device mode settings store).1.result = .error error ∧ error.severity = .fatal := by
  rw [result_load mode faultless filled valid]
  cases made : ofImage store.image mode settings device.location with
  | error error => exact .inr ⟨_, rfl, fatal_ofImage _ _ _ _ _ made⟩
  | ok found => exact .inl ⟨_, rfl⟩

end Handle
end CheckpointStore
