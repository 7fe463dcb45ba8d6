import CheckpointStore.Image.LiveIndex
import CheckpointStore.Proofs.Blocks
import CheckpointStore.Proofs.Trailers

/-!
# Checkpoints and their chain

What validates at a page boundary, the chain that is walked from it and the index that is replayed
along the chain depend on the bytes up to that boundary alone. The chain goes strictly toward the
start of the file, and the index holds values that lie in the file.
-/

namespace CheckpointStore

/-! ### Valid checkpoints -/

theorem validateCheckpoint_ok_iff {image : Image} {stop pageSize : Nat} {trailer : Trailer} :
    validateCheckpoint image stop pageSize = .ok trailer ↔
      Trailer.readEndingAt image stop pageSize = .ok trailer ∧ ∃ blocks, trailer.blocks image = .ok blocks := by
  unfold validateCheckpoint
  constructor
  · intro h
    split at h
    · contradiction
    · split at h
      · contradiction
      · rename_i read _ blocks parsed
        obtain rfl := Except.ok.inj h
        exact ⟨read, blocks, parsed⟩
  · rintro ⟨read, blocks, parsed⟩
    simp only [read, parsed]

theorem stop_of_read {image : Image} {stop pageSize : Nat} {trailer : Trailer}
    (read : Trailer.readEndingAt image stop pageSize = .ok trailer) :
    trailer.checkpointSize = stop ∧ pageSize + 40 ≤ stop ∧ stop ≤ image.size ∧ stop % pageSize = 0 := by
  obtain ⟨above, inside, aligned, -, -, placed⟩ := Trailer.readEndingAt_ok_iff.mp read
  exact ⟨placed.ends, above, inside, aligned⟩

theorem stop_of_valid {image : Image} {stop pageSize : Nat} {trailer : Trailer}
    (valid : validateCheckpoint image stop pageSize = .ok trailer) :
    trailer.checkpointSize = stop ∧ pageSize + 40 ≤ stop ∧ stop ≤ image.size ∧ stop % pageSize = 0 :=
  stop_of_read (validateCheckpoint_ok_iff.mp valid).1

section Local

variable {a b : Image} {reach pageSize : Nat}

theorem blocks_of_read_agree (h : Image.Agree reach a b) {stop : Nat} {trailer : Trailer} (le : stop ≤ reach)
    (read : Trailer.readEndingAt a stop pageSize = .ok trailer) : trailer.blocks a = trailer.blocks b := by
  obtain ⟨-, -, -, -, -, placed⟩ := Trailer.readEndingAt_ok_iff.mp read
  have ends := placed.ends
  exact Trailer.blocks_agree h placed.beforeTrailer (by unfold Trailer.offset; omega)

/-- Whether a checkpoint is valid does not depend on what is behind it. -/
theorem validateCheckpoint_agree (h : Image.Agree reach a b) {stop : Nat} (le : stop ≤ reach) :
    validateCheckpoint a stop pageSize = validateCheckpoint b stop pageSize := by
  have same : Trailer.readEndingAt a stop pageSize = Trailer.readEndingAt b stop pageSize :=
    Trailer.readEndingAt_agree h le
  unfold validateCheckpoint
  rw [← same]
  cases read : Trailer.readEndingAt a stop pageSize with
  | error error => rfl
  | ok trailer =>
    simp only
    rw [blocks_of_read_agree h le read]

theorem chain_agree (h : Image.Agree reach a b) {stop : Nat} (le : stop ≤ reach) :
    chain a pageSize stop = chain b pageSize stop := by
  induction stop using Nat.strongRecOn with
  | ind stop ih =>
    rw [chain, chain, ← Trailer.readEndingAt_agree h le]
    split
    · rfl
    cases Trailer.readEndingAt a stop pageSize with
    | error error => rfl
    | ok trailer =>
      dsimp only
      split
      · rename_i back
        rw [ih _ back (by omega)]
      · rfl

end Local

/-! ### The chain -/

section Chain

variable {image : Image} {pageSize stop : Nat}

@[simp] theorem chain_zero : chain image pageSize 0 = .ok [] := by
  rw [chain, if_pos rfl]

theorem chain_of_read {trailer : Trailer} (read : Trailer.readEndingAt image stop pageSize = .ok trailer) :
    chain image pageSize stop
      = (chain image pageSize trailer.previousCheckpoint).map (trailer :: ·) := by
  have past := (stop_of_read read).2.1
  rw [chain, if_neg (by omega), read]
  dsimp only
  rw [dif_pos (Trailer.previousCheckpoint_lt read)]
  cases chain image pageSize trailer.previousCheckpoint <;> rfl

/-- What a successful walk has passed. -/
inductive Walk (image : Image) (pageSize : Nat) : Nat → List Trailer → Prop where
  | header : Walk image pageSize 0 []
  | step {stop : Nat} {trailer : Trailer} {older : List Trailer}
      (read : Trailer.readEndingAt image stop pageSize = .ok trailer)
      (rest : Walk image pageSize trailer.previousCheckpoint older) :
      Walk image pageSize stop (trailer :: older)

theorem chain_ok_iff {trailers : List Trailer} :
    chain image pageSize stop = .ok trailers ↔ Walk image pageSize stop trailers := by
  constructor
  · intro h
    -- a link goes back any distance, so the induction is on where the walk stands
    induction stop using Nat.strongRecOn generalizing trailers with
    | ind stop ih =>
      by_cases zero : stop = 0
      · subst zero
        rw [chain_zero] at h
        obtain rfl := Except.ok.inj h
        exact .header
      · rw [chain, if_neg zero] at h
        split at h
        · contradiction
        rename_i trailer read
        split at h
        · rename_i back
          split at h
          · contradiction
          rename_i older rest
          obtain rfl := Except.ok.inj h
          exact .step read (ih _ back rest)
        · contradiction
  · intro h
    induction h with
    | header => exact chain_zero
    | step read _ ih => rw [chain_of_read read, ih, Except.map]

/-- The walk is refused only where a trailer is. -/
theorem refused_of_chain {error : StorageError} (refused : chain image pageSize stop = .error error) :
    ∃ place ≤ stop, Trailer.readEndingAt image place pageSize = .error error := by
  induction stop using Nat.strongRecOn with
  | ind stop ih =>
    by_cases zero : stop = 0
    · rw [zero, chain_zero] at refused
      contradiction
    · cases read : Trailer.readEndingAt image stop pageSize with
      | error first =>
        rw [chain, if_neg zero, read] at refused
        obtain rfl := Except.error.inj refused
        exact ⟨stop, Nat.le_refl _, read⟩
      | ok trailer =>
        have back := Trailer.previousCheckpoint_lt read
        rw [chain_of_read read] at refused
        cases older : chain image pageSize trailer.previousCheckpoint with
        | ok trailers =>
          rw [older] at refused
          contradiction
        | error first =>
          rw [older] at refused
          obtain ⟨place, below, later⟩ := ih _ back (older.trans refused)
          exact ⟨place, below.trans back.le, later⟩

theorem Walk.eq_nil {trailers : List Trailer} (walk : Walk image pageSize 0 trailers) : trailers = [] := by
  cases walk with
  | header => rfl
  | step read rest =>
    have above := (stop_of_read read).2.1
    omega

theorem Walk.newest (walk : Walk image pageSize stop trailers) :
    (trailers.map Trailer.checkpointSize).head?.getD 0 = stop := by
  cases walk with
  | header => rfl
  | step read rest => exact (stop_of_read read).1

theorem Walk.checkpointSize_le {trailers : List Trailer} (walk : Walk image pageSize stop trailers) :
    ∀ trailer ∈ trailers, trailer.checkpointSize ≤ stop := by
  induction walk with
  | header => simp
  | step read _ ih =>
    intro trailer mem
    rcases List.mem_cons.mp mem with rfl | mem
    · exact Nat.le_of_eq (stop_of_read read).1
    · exact Nat.le_trans (ih trailer mem) (Nat.le_of_lt (Trailer.previousCheckpoint_lt read))

theorem Walk.descending {trailers : List Trailer} (walk : Walk image pageSize stop trailers) :
    trailers.Pairwise fun newer older => older.checkpointSize < newer.checkpointSize := by
  induction walk with
  | header => exact List.Pairwise.nil
  | step read rest ih =>
    refine List.pairwise_cons.mpr ⟨?_, ih⟩
    intro older mem
    have below := rest.checkpointSize_le older mem
    have back := Trailer.previousCheckpoint_lt read
    have ends := (stop_of_read read).1
    omega

theorem Walk.read {trailers : List Trailer} (walk : Walk image pageSize stop trailers) :
    ∀ trailer ∈ trailers, Trailer.readEndingAt image trailer.checkpointSize pageSize = .ok trailer := by
  induction walk with
  | header => simp
  | step read _ ih =>
    intro trailer mem
    rcases List.mem_cons.mp mem with rfl | mem
    · rw [(stop_of_read read).1]
      exact read
    · exact ih trailer mem

/-- From a trailer on the chain the walk goes on as it did behind it. -/
theorem Walk.from_mem {trailers : List Trailer} (walk : Walk image pageSize stop trailers) {trailer : Trailer}
    (mem : trailer ∈ trailers) :
    ∃ newer older, trailers = newer ++ trailer :: older ∧
      Walk image pageSize trailer.checkpointSize (trailer :: older) := by
  induction walk with
  | header => contradiction
  | @step stop first rest read walked ih =>
    rcases List.mem_cons.mp mem with rfl | mem
    · refine ⟨[], rest, rfl, ?_⟩
      rw [(stop_of_read read).1]
      exact .step read walked
    · obtain ⟨newer, older, rfl, behind⟩ := ih mem
      exact ⟨first :: newer, older, rfl, behind⟩

theorem Walk.unique {trailers others : List Trailer} (walk : Walk image pageSize stop trailers)
    (again : Walk image pageSize stop others) : trailers = others :=
  Except.ok.inj ((chain_ok_iff.mpr walk).symm.trans (chain_ok_iff.mpr again))

end Chain

/-! ### The index -/

namespace LiveIndex

theorem applyAll_append (image : Image) (older newer : List Trailer) (index : LiveIndex) :
    applyAll image (older ++ newer) index = (applyAll image older index).bind (applyAll image newer) := by
  induction older generalizing index with
  | nil => rfl
  | cons trailer older ih =>
    rw [List.cons_append, applyAll, applyAll]
    cases index.apply image trailer with
    | error error => rfl
    | ok next => exact ih next

theorem applyAll_ok_of_append {image : Image} {older newer : List Trailer} {index final : LiveIndex}
    (applied : applyAll image (older ++ newer) index = .ok final) : ∃ middle, applyAll image older index = .ok middle := by
  rw [applyAll_append] at applied
  cases first : applyAll image older index with
  | error error =>
    rw [first] at applied
    contradiction
  | ok middle => exact ⟨middle, rfl⟩

theorem blocks_of_applyAll {image : Image} {trailers : List Trailer} {index final : LiveIndex}
    (applied : applyAll image trailers index = .ok final) :
    ∀ trailer ∈ trailers, ∃ blocks, trailer.blocks image = .ok blocks := by
  induction trailers generalizing index with
  | nil => simp
  | cons first rest ih =>
    rw [applyAll, apply] at applied
    cases parsed : first.blocks image with
    | error error => simp [parsed] at applied
    | ok blocks =>
      simp only [parsed] at applied
      intro trailer mem
      rcases List.mem_cons.mp mem with rfl | mem
      · exact ⟨blocks, parsed⟩
      · exact ih applied trailer mem

theorem applyAll_congr {a b : Image} {trailers : List Trailer}
    (same : ∀ trailer ∈ trailers, trailer.blocks a = trailer.blocks b) (index : LiveIndex) :
    applyAll a trailers index = applyAll b trailers index := by
  induction trailers generalizing index with
  | nil => rfl
  | cons trailer rest ih =>
    have applied : index.apply a trailer = index.apply b trailer := by
      unfold apply
      rw [same trailer List.mem_cons_self]
    rw [applyAll, applyAll, applied]
    cases index.apply b trailer with
    | error error => rfl
    | ok next => exact ih (fun other mem => same other (List.mem_cons_of_mem _ mem)) next

theorem build_agree {a b : Image} {reach pageSize stop : Nat} (h : Image.Agree reach a b) (le : stop ≤ reach) :
    build a pageSize stop = build b pageSize stop := by
  unfold build
  rw [← chain_agree h le]
  cases walked : chain a pageSize stop with
  | error error => rfl
  | ok trailers =>
    have walk := chain_ok_iff.mp walked
    refine applyAll_congr ?_ empty
    intro trailer mem
    have old := List.mem_reverse.mp mem
    exact blocks_of_read_agree h (Nat.le_trans (walk.checkpointSize_le trailer old) le) (walk.read trailer old)

theorem build_of_walk {image : Image} {pageSize stop : Nat} {trailers : List Trailer}
    (walk : Walk image pageSize stop trailers) : build image pageSize stop = applyAll image trailers.reverse empty := by
  rw [build, chain_ok_iff.mpr walk]

theorem walk_of_build {image : Image} {pageSize stop : Nat} {index : LiveIndex}
    (built : build image pageSize stop = .ok index) : ∃ trailers, Walk image pageSize stop trailers := by
  unfold build at built
  split at built
  · contradiction
  · rename_i trailers walked
    exact ⟨trailers, chain_ok_iff.mp walked⟩

/-- Where the whole chain is replayed, so is the chain from any checkpoint on it. -/
theorem build_from_mem {image : Image} {pageSize stop : Nat} {newer older : List Trailer} {trailer : Trailer}
    {index : LiveIndex} (walk : Walk image pageSize stop (newer ++ trailer :: older))
    (behind : Walk image pageSize trailer.checkpointSize (trailer :: older))
    (built : build image pageSize stop = .ok index) :
    ∃ earlier, build image pageSize trailer.checkpointSize = .ok earlier := by
  rw [build_of_walk walk, List.reverse_append] at built
  rw [build_of_walk behind]
  exact applyAll_ok_of_append built

/-- The index of a checkpoint is that of the checkpoint before it with its own blocks applied, and fails
as they do. -/
theorem build_eq_apply {image : Image} {pageSize stop : Nat} {trailer : Trailer}
    (read : Trailer.readEndingAt image stop pageSize = .ok trailer) :
    build image pageSize stop = (build image pageSize trailer.previousCheckpoint).bind (·.apply image trailer) := by
  unfold build
  rw [chain_of_read read]
  cases chain image pageSize trailer.previousCheckpoint with
  | error error => rfl
  | ok trailers =>
    simp only [Except.map, List.reverse_cons, applyAll_append]
    congr 1
    funext older
    rw [applyAll]
    cases older.apply image trailer <;> rfl

theorem build_of_read {image : Image} {pageSize stop : Nat} {trailer : Trailer} {older index : LiveIndex}
    (read : Trailer.readEndingAt image stop pageSize = .ok trailer)
    (before : build image pageSize trailer.previousCheckpoint = .ok older)
    (applied : older.apply image trailer = .ok index) : build image pageSize stop = .ok index := by
  rw [build_eq_apply read, before]
  exact applied

end LiveIndex
end CheckpointStore
