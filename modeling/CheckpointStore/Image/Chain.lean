import CheckpointStore.Format.Trailer

/-!
# The trailer chain

Every trailer points to the one before it. The walk from a checkpoint back to the header ends
because each step goes strictly toward the start of the file.
-/

namespace CheckpointStore

/-- The trailers from the checkpoint ending at `stop` back to the first, newest first. -/
def chain (image : Image) (pageSize stop : Nat) : Except StorageError (List Trailer) :=
  if stop = 0 then .ok []
  else
    match Trailer.readEndingAt image stop pageSize with
    | .error error => .error error
    | .ok trailer =>
      if _ : trailer.previousCheckpoint < stop then
        match chain image pageSize trailer.previousCheckpoint with
        | .error error => .error error
        | .ok older => .ok (trailer :: older)
      else .error (.checkpoint trailer.offset .chainOrder)
termination_by stop

end CheckpointStore
