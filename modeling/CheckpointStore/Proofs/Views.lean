import CheckpointStore.Proofs.Contents

/-!
# Views

A view holds what the handle did when its checkpoint was the current one. Everything it reads lies
before that checkpoint, so it reads the same through whatever handle of a file it is taken, and
from a view the older checkpoints can be viewed in turn.
-/

namespace CheckpointStore
namespace Handle

variable {handle : Handle}

def viewed (handle : Handle) : Handle :=
  { handle with
    staged := KeyMap.empty
    recovery := .clean
    access := .view
    poisoned := false }

/-- The handle holds what its image says of one of its checkpoints, which need not be the newest. -/
structure Charted (handle : Handle) : Prop where
  current : ∀ trailer, handle.current = some trailer →
    Trailer.readEndingAt handle.image handle.checkpoint handle.pageSize = .ok trailer
  walk : ∃ trailers, Walk handle.image handle.pageSize handle.checkpoint trailers ∧
    handle.history = trailers.map Trailer.checkpointSize
  index : LiveIndex.build handle.image handle.pageSize handle.checkpoint = .ok handle.index

theorem Grounded.charted (grounded : handle.Grounded) : handle.Charted := by
  refine ⟨?_, grounded.walk, grounded.index⟩
  intro trailer current
  rw [checkpoint_of_current current]
  exact (validateCheckpoint_ok_iff.mp (grounded.current trailer current).valid).1

section Charted

variable {checkpoint : Nat}

theorem Charted.bounds (charted : handle.Charted) (mem : checkpoint ∈ handle.history) :
    handle.pageSize + 40 ≤ checkpoint ∧ checkpoint ≤ handle.image.size := by
  obtain ⟨trailers, walk, history⟩ := charted.walk
  rw [history] at mem
  obtain ⟨trailer, here, rfl⟩ := List.mem_map.mp mem
  obtain ⟨-, past, inside, -⟩ := stop_of_read (walk.read trailer here)
  exact ⟨past, inside⟩

theorem take_idxOf {older newer : List Nat} (fresh : checkpoint ∉ older) :
    (older ++ checkpoint :: newer).take ((older ++ checkpoint :: newer).idxOf checkpoint + 1) = older ++ [checkpoint] := by
  rw [List.idxOf_append_of_notMem fresh, List.idxOf_cons_self, List.take_append]
  simp

/-- The parts of a view of a checkpoint on the chain: what is walked and replayed from there. -/
theorem Charted.viewParts_of_mem (charted : handle.Charted) (mem : checkpoint ∈ handle.history) :
    ∃ trailer trailers index, Trailer.readEndingAt handle.image checkpoint handle.pageSize = .ok trailer ∧
      Walk handle.image handle.pageSize checkpoint trailers ∧
      LiveIndex.build handle.image handle.pageSize checkpoint = .ok index ∧
      handle.viewParts checkpoint = .ok (some trailer, (trailers.map Trailer.checkpointSize).reverse, index) := by
  have past := (charted.bounds mem).1
  have listed : checkpoint ∈ handle.checkpoints := List.mem_reverse.mp mem
  obtain ⟨trailers, walk, history⟩ := charted.walk
  rw [history] at mem
  obtain ⟨trailer, here, rfl⟩ := List.mem_map.mp mem
  obtain ⟨newer, older, rfl, behind⟩ := walk.from_mem here
  obtain ⟨index, built⟩ := LiveIndex.build_from_mem walk behind charted.index
  have read := walk.read trailer here
  have split : handle.checkpoints = (older.map Trailer.checkpointSize).reverse
      ++ trailer.checkpointSize :: (newer.map Trailer.checkpointSize).reverse := by
    rw [← handle.checkpoints.reverse_reverse, ← Handle.history, history]
    simp
  have fresh : trailer.checkpointSize ∉ (older.map Trailer.checkpointSize).reverse := by
    intro again
    obtain ⟨other, old, same⟩ := List.mem_map.mp (List.mem_reverse.mp again)
    have less := (List.pairwise_cons.mp behind.descending).1 other old
    omega
  refine ⟨trailer, trailer :: older, index, read, behind, built, ?_⟩
  unfold viewParts
  rw [if_neg (by omega), if_pos listed, read]
  dsimp only
  rw [built, split, take_idxOf fresh, List.map_cons, List.reverse_cons]

/-- Every checkpoint on the chain can be viewed. -/
theorem Charted.viewAt_of_mem (charted : handle.Charted) (mem : checkpoint ∈ handle.history) :
    ∃ view, (handle.viewAt checkpoint).result = .ok view ∧ view.Charted ∧ view.image = handle.image ∧
      view.header = handle.header ∧ view.checkpoint = checkpoint ∧ view.staged = KeyMap.empty := by
  obtain ⟨trailer, trailers, index, read, walk, built, parts⟩ := charted.viewParts_of_mem mem
  obtain ⟨rfl, -⟩ := stop_of_read read
  unfold viewAt
  rw [parts]
  refine ⟨_, rfl, ⟨?_, ⟨trailers, walk, List.reverse_reverse _⟩, built⟩, rfl, rfl, rfl, rfl⟩
  intro other same
  obtain rfl := Option.some.inj same
  exact read

theorem viewAt_of_not_mem (committed : checkpoint ≠ 0) (unknown : checkpoint ∉ handle.history) :
    (handle.viewAt checkpoint).result = .error (.unknownCheckpoint checkpoint) := by
  have absent : checkpoint ∉ handle.checkpoints := fun mem => unknown (List.mem_reverse.mpr mem)
  unfold viewAt viewParts
  rw [if_neg committed, if_neg absent]

/-- The view of checkpoint zero, which is of no checkpoint. -/
theorem viewAt_zero (handle : Handle) :
    ∃ view, (handle.viewAt 0).result = .ok view ∧ view.Charted ∧ view.image = handle.image ∧
      view.header = handle.header ∧ view.checkpoint = 0 ∧ view.staged = KeyMap.empty := by
  refine ⟨_, rfl, ⟨nofun, ⟨[], .header, rfl⟩, ?_⟩, rfl, rfl, rfl, rfl⟩
  show LiveIndex.build _ _ 0 = _
  rw [LiveIndex.build, chain_zero]
  rfl

end Charted

theorem Charted.checkpoint_mem (charted : handle.Charted) (committed : handle.checkpoint ≠ 0) :
    handle.checkpoint ∈ handle.history := by
  obtain ⟨trailers, walk, history⟩ := charted.walk
  rw [history]
  generalize handle.checkpoint = stop at *
  cases walk with
  | header => contradiction
  | step read rest =>
    rw [List.map_cons, (stop_of_read read).1]
    exact List.mem_cons_self

theorem Grounded.viewParts_checkpoint (grounded : handle.Grounded) :
    handle.viewParts handle.checkpoint = .ok (handle.current, handle.checkpoints, handle.index) := by
  obtain ⟨trailers, walk, history⟩ := grounded.walk
  have index := grounded.index
  have listed : (trailers.map Trailer.checkpointSize).reverse = handle.checkpoints := by
    rw [← history, Handle.history, List.reverse_reverse]
  cases current : handle.current with
  | none =>
    have zero := checkpoint_of_fresh current
    rw [zero] at walk index
    rw [LiveIndex.build, chain_zero] at index
    rw [walk.eq_nil] at listed
    have bare : LiveIndex.empty = handle.index := Except.ok.inj index
    rw [viewParts, if_pos zero, ← listed, bare]
    rfl
  | some trailer =>
    have committed : handle.checkpoint ≠ 0 := by
      rw [ne_eq, grounded.checkpoint_eq_zero_iff, current]
      exact Option.some_ne_none trailer
    obtain ⟨found, others, built, read, again, replayed, parts⟩ :=
      grounded.charted.viewParts_of_mem (grounded.charted.checkpoint_mem committed)
    rw [grounded.charted.current trailer current] at read
    rw [index] at replayed
    obtain rfl := Except.ok.inj read
    obtain rfl := Except.ok.inj replayed
    rw [parts, ← walk.unique again, listed]

/-- The current checkpoint can always be viewed. -/
theorem Grounded.viewAt_checkpoint (grounded : handle.Grounded) :
    (handle.viewAt handle.checkpoint).result = .ok handle.viewed := by
  unfold viewAt
  rw [grounded.viewParts_checkpoint]
  rfl

/-! ### Readings -/

section Readings

variable {a b : Handle}

theorem SameReadings.of_committed? (bare : a.staged = KeyMap.empty) (clear : b.staged = KeyMap.empty)
    (same : ∀ key, a.committed? key = b.committed? key) (current : a.current = b.current)
    (checkpoints : a.checkpoints = b.checkpoints) : a.SameReadings b := by
  have sound : a.Sound := Sound.of_staged_empty bare
  have alike : b.Sound := Sound.of_staged_empty clear
  have get (key : Bytes) : a.get? key = b.get? key := by
    rw [get?_of_staged_empty bare, get?_of_staged_empty clear, same]
  have size := size_congr sound alike get
  refine ⟨get, ?_, contains_congr sound alike get, size, ?_, documentsFrom_congr sound alike get [],
    documentsFrom_congr sound alike get, ?_, ?_, congrArg List.reverse checkpoints⟩
  · intro key
    unfold getDocument?
    rw [bare, clear, KeyMap.get?_empty, get]
  · show (a.size == 0) = (b.size == 0)
    rw [size]
  · unfold Handle.checkpoint
    rw [current]
  · unfold Handle.previousCheckpoint
    rw [current]

theorem Charted.checkpoint_le (charted : handle.Charted) : handle.checkpoint ≤ handle.image.size := by
  by_cases fresh : handle.checkpoint = 0
  · omega
  · exact (charted.bounds (charted.checkpoint_mem fresh)).2

theorem Charted.checkpoint_eq_zero_iff (charted : handle.Charted) : handle.checkpoint = 0 ↔ handle.current = none := by
  cases current : handle.current with
  | none => simp [checkpoint_of_fresh current]
  | some trailer =>
    have past := (stop_of_read (charted.current trailer current)).2.1
    simp only [reduceCtorEq, iff_false]
    omega

/-- With nothing staged, what is read is decided by the checkpoint and the bytes before it. -/
theorem Charted.sameReadings (first : a.Charted) (second : b.Charted) (begun : b.image.bytes <+: a.image.bytes)
    (header : a.header = b.header) (checkpoint : a.checkpoint = b.checkpoint) (bare : a.staged = KeyMap.empty)
    (clear : b.staged = KeyMap.empty) : a.SameReadings b := by
  obtain ⟨rest, image⟩ := Image.exists_append begun
  have agree := Image.agree_append b.image rest
  rw [← image] at agree
  have inside := second.checkpoint_le
  have page : a.pageSize = b.pageSize := congrArg Header.pageSize header
  have index : a.index = b.index := by
    have built := first.index
    rw [page, checkpoint, ← LiveIndex.build_agree agree inside, second.index] at built
    exact (Except.ok.inj built).symm
  have current : a.current = b.current := by
    cases here : a.current with
    | none =>
      have fresh := first.checkpoint_eq_zero_iff.mpr here
      rw [second.checkpoint_eq_zero_iff.mp (checkpoint ▸ fresh)]
    | some trailer =>
      have committed : b.checkpoint ≠ 0 := by
        rw [← checkpoint, ne_eq, first.checkpoint_eq_zero_iff, here]
        exact nofun
      obtain ⟨other, there⟩ := Option.ne_none_iff_exists'.mp (mt second.checkpoint_eq_zero_iff.mpr committed)
      have read := first.current trailer here
      rw [page, checkpoint, ← Trailer.readEndingAt_agree agree inside, second.current other there] at read
      rw [there, Except.ok.inj read]
  have checkpoints : a.checkpoints = b.checkpoints := by
    obtain ⟨trailers, walk, history⟩ := first.walk
    obtain ⟨others, again, listed⟩ := second.walk
    rw [page, checkpoint, ← chain_ok_iff, ← chain_agree agree inside, chain_ok_iff] at walk
    obtain rfl := walk.unique again
    exact List.reverse_injective (history.trans listed.symm)
  refine SameReadings.of_committed? bare clear ?_ current checkpoints
  intro key
  unfold committed? LiveIndex.get?
  rw [index]
  apply Option.map_congr
  intro entry found
  exact (agree.slice (LiveIndex.within_build second.index key entry found)).symm

end Readings

end Handle
end CheckpointStore
