import Mathlib.Logic.Function.Iterate
import Mathlib.Order.Interval.Set.Disjoint
import CheckpointStore.Proofs.Identifiers
import CheckpointStore.Proofs.Tails

/-!
# The walk along a chain

The walk follows links that were read from the file, whatever bytes it holds. Here it is a loop whose form
does not make it end. It ends because a trailer that is read links back by a page at least. No link leads
past the first block of its own checkpoint, so the checkpoints that are passed lie apart.
-/

namespace CheckpointStore

/-- The bytes of a checkpoint, from its first block to the end of its trailer. -/
def Trailer.extent (trailer : Trailer) : Set Nat := Set.Ico trailer.blocksStart trailer.checkpointSize

/-- A walk between two turns of its loop. -/
inductive Course where
  /-- It has passed these trailers, newest first. The next one ends at `stop`, and at zero there is none -/
  | standing (passed : List Trailer) (stop : Nat)
  | ended (result : Except StorageError (List Trailer))

/-- One turn of the loop. -/
def Course.turn (image : Image) (pageSize : Nat) : Course → Course
  | ended result => ended result
  | standing passed stop =>
    if stop = 0 then ended (.ok passed)
    else
      match Trailer.readEndingAt image stop pageSize with
      | .error error => ended (.error error)
      | .ok trailer =>
        if trailer.previousCheckpoint < stop then standing (passed ++ [trailer]) trailer.previousCheckpoint
        else ended (.error (.checkpoint trailer.offset .chainOrder))

/-- A walk from `stop` back to the first checkpoint has passed these trailers, newest first. -/
structure Descent (pageSize stop : Nat) (trailers : List Trailer) : Prop where
  newest : (trailers.map Trailer.checkpointSize).head? = some stop
  descending : trailers.Pairwise fun newer older => older.checkpointSize < newer.checkpointSize
  /-- The first has no link, or one that comes to zero past the last number of eight bytes -/
  oldest : ∃ first, trailers.getLast? = some first ∧
    (first.previousTrailer = 0 ∨ first.previousTrailer = 256 ^ 8 - 40)
  apart : trailers.Pairwise fun newer older => Disjoint newer.extent older.extent
  inside : ∀ trailer ∈ trailers,
    pageSize ≤ trailer.blocksStart ∧ trailer.blocksStart < trailer.checkpointSize ∧ trailer.checkpointSize ≤ stop

section

variable {image : Image} {pageSize stop : Nat} {trailer : Trailer} {trailers : List Trailer}

/-! ### One link -/

namespace Trailer

/-- A link leads to the end of an earlier page. -/
theorem previousCheckpoint_div_lt (read : readEndingAt image stop pageSize = .ok trailer) :
    trailer.previousCheckpoint / pageSize < stop / pageSize := by
  have back := previousCheckpoint_add_le read
  have positive : 0 < pageSize := by
    by_contra none
    obtain rfl : pageSize = 0 := by omega
    obtain ⟨-, above, -, aligned⟩ := stop_of_read read
    rw [Nat.mod_zero] at aligned
    omega
  calc trailer.previousCheckpoint / pageSize
      < (trailer.previousCheckpoint + pageSize) / pageSize := by
        rw [Nat.add_div_right _ positive]
        exact Nat.lt_succ_self _
    _ ≤ stop / pageSize := Nat.div_le_div_right back

theorem readEndingAt_ne_chainOrder (image : Image) (stop pageSize place : Nat) :
    readEndingAt image stop pageSize ≠ .error (.checkpoint place .chainOrder) := by
  unfold readEndingAt
  dsimp only
  split_ifs <;> simp

end Trailer

/-! ### The loop -/

namespace Course

theorem turn_of_read (read : Trailer.readEndingAt image stop pageSize = .ok trailer) (passed : List Trailer) :
    turn image pageSize (standing passed stop) = standing (passed ++ [trailer]) trailer.previousCheckpoint := by
  have past := (stop_of_read read).2.1
  rw [turn, if_neg (by omega), read]
  exact if_pos (Trailer.previousCheckpoint_lt read)

theorem iterate_turn_ended (image : Image) (pageSize turns : Nat) (result : Except StorageError (List Trailer)) :
    (turn image pageSize)^[turns] (ended result) = ended result :=
  Function.iterate_fixed rfl turns

/-- The loop comes to what the chain is before it has taken more turns than there are pages. -/
theorem iterate_turn_standing {turns : Nat} (enough : stop / pageSize < turns) (passed : List Trailer) :
    (turn image pageSize)^[turns] (standing passed stop) = ended ((chain image pageSize stop).map (passed ++ ·)) := by
  induction turns generalizing stop passed with
  | zero => contradiction
  | succ turns ih =>
    rw [Function.iterate_succ_apply]
    by_cases zero : stop = 0
    · subst zero
      rw [turn, if_pos rfl, iterate_turn_ended, chain_zero, Except.map, List.append_nil]
    · cases read : Trailer.readEndingAt image stop pageSize with
      | error error =>
        rw [turn, if_neg zero, read, chain, if_neg zero, read]
        exact iterate_turn_ended ..
      | ok trailer =>
        have back := Trailer.previousCheckpoint_div_lt read
        rw [turn_of_read read, ih (by omega), chain_of_read read]
        cases chain image pageSize trailer.previousCheckpoint with
        | error error => rfl
        | ok older => simp only [Except.map, List.append_assoc, List.singleton_append]

end Course

theorem chain_ne_chainOrder (image : Image) (pageSize stop place : Nat) :
    chain image pageSize stop ≠ .error (.checkpoint place .chainOrder) := by
  intro refused
  obtain ⟨other, -, read⟩ := refused_of_chain refused
  exact Trailer.readEndingAt_ne_chainOrder image other pageSize place read

/-! ### What the walk has passed -/

namespace Walk

/-- A checkpoint lies behind all that are older. -/
theorem behind (walk : Walk image pageSize stop trailers) :
    trailers.Pairwise fun newer older => older.checkpointSize ≤ newer.blocksStart := by
  induction walk with
  | header => exact List.Pairwise.nil
  | step read rest ih =>
    refine List.pairwise_cons.mpr ⟨fun older mem => ?_, ih⟩
    obtain ⟨-, -, -, -, -, placed⟩ := Trailer.readEndingAt_ok_iff.mp read
    exact (rest.checkpointSize_le older mem).trans (Trailer.previousCheckpoint_le placed)

theorem oldest (walk : Walk image pageSize stop trailers) (some : trailers ≠ []) :
    ∃ first, trailers.getLast? = .some first ∧
      (first.previousTrailer = 0 ∨ first.previousTrailer = 256 ^ 8 - 40) := by
  obtain ⟨newer, first, rfl⟩ := List.eq_nil_or_concat' trailers |>.resolve_left some
  have read := walk.read first List.mem_concat_self
  obtain ⟨-, -, -, -, fits, -⟩ := Trailer.readEndingAt_ok_iff.mp read
  exact ⟨first, List.getLast?_concat .., (Trailer.previousCheckpoint_eq_zero_iff fits).mp (walk.linked rfl)⟩

theorem descent (walk : Walk image pageSize stop trailers) (positive : 0 < stop) : Descent pageSize stop trailers := by
  have some : trailers ≠ [] := by
    rintro rfl
    exact positive.ne walk.newest
  refine ⟨?_, walk.descending, walk.oldest some, ?_, fun trailer mem => ?_⟩
  · cases walk with
    | header => contradiction
    | step read rest => exact congrArg Option.some (stop_of_read read).1
  · refine walk.behind.imp fun behind => Set.Ico_disjoint_Ico.mpr ?_
    exact (min_le_right _ _).trans (behind.trans (le_max_left _ _))
  · obtain ⟨above, -, -, -, -, placed⟩ := Trailer.readEndingAt_ok_iff.mp (walk.read trailer mem)
    have before := placed.beforeTrailer
    have offset : trailer.offset = trailer.checkpointSize - Trailer.size := rfl
    have size : Trailer.size = 40 := rfl
    exact ⟨placed.afterHeader, by omega, walk.checkpointSize_le trailer mem⟩

end Walk

end

/-- The walk from any place in any bytes ends, within a turn for each page below that place and one more,
and is never refused for a link that does not lead back. Where it succeeds, the checkpoints that it has
passed descend from that place to one that links to none, and lie apart between the header and that place. -/
theorem chain_ends_with_checkpoints_apart (image : Image) (pageSize stop : Nat) :
    (∀ turns, stop / pageSize < turns →
        (Course.turn image pageSize)^[turns] (.standing [] stop) = .ended (chain image pageSize stop)) ∧
      (∀ place, chain image pageSize stop ≠ .error (.checkpoint place .chainOrder)) ∧
      ∀ trailers, 0 < stop → chain image pageSize stop = .ok trailers → Descent pageSize stop trailers := by
  refine ⟨fun turns enough => ?_, chain_ne_chainOrder image pageSize stop,
    fun trailers positive walked => (chain_ok_iff.mp walked).descent positive⟩
  rw [Course.iterate_turn_standing enough]
  cases chain image pageSize stop <;> rfl

/-- Between two checkpoints there are 76 bytes that belong to neither. -/
theorem chain_ends_across_orphaned_bytes :
    ∃ image, 2048 / 512 < 5 ∧ 0 < 2048 ∧ chain image 512 2048 = .ok [⟨984, 2048, 1100, 3⟩, ⟨0, 1024, 512, 0⟩] ∧
      (Course.turn image 512)^[5] (.standing [] 2048) = .ended (.ok [⟨984, 2048, 1100, 3⟩, ⟨0, 1024, 512, 0⟩]) ∧
      Descent 512 2048 [⟨984, 2048, 1100, 3⟩, ⟨0, 1024, 512, 0⟩] := by
  obtain ⟨front, whole, first⟩ : ∃ front : Image, front.size = 1024 ∧
      Trailer.readEndingAt front 1024 512 = .ok ⟨0, 1024, 512, 0⟩ := by
    refine ⟨.empty ++ .ofBytes (Bytes.zeros 984 ++ (⟨0, 1024, 512, 0⟩ : Trailer).encode), ?_, ?_⟩
    · rw [Image.size_append, Image.size_ofBytes, List.length_append, Bytes.length_zeros, Trailer.length_encode]
      rfl
    · exact readEndingAt_behind_zeros .empty 984 rfl (by decide) (by decide)
        ⟨by decide, by decide, by decide, by decide⟩ ⟨rfl, by decide, by decide, rfl⟩
  have second :
      Trailer.readEndingAt (front ++ .ofBytes (Bytes.zeros 984 ++ (⟨984, 2048, 1100, 3⟩ : Trailer).encode)) 2048 512
        = .ok ⟨984, 2048, 1100, 3⟩ :=
    readEndingAt_behind_zeros front 984 (by rw [whole]; rfl) (by decide) (by decide)
      ⟨by decide, by decide, by decide, by decide⟩ ⟨rfl, by decide, by decide, rfl⟩
  rw [Trailer.readEndingAt_agree (Image.agree_append front _) (by rw [whole])] at first
  have walked := chain_ok_iff.mpr (.step second (.step first .header))
  obtain ⟨ends, -, passed⟩ := chain_ends_with_checkpoints_apart _ 512 2048
  refine ⟨_, by decide, by decide, walked, ?_, passed _ (by decide) walked⟩
  rw [ends 5 (by decide), walked]

end CheckpointStore
