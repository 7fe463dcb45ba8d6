import CheckpointStore.Format.Header
import CheckpointStore.Image.Checkpoint

/-!
# Layout of a file image

A file is a header page followed by checkpoints. Loading trusts the header, then looks at every
page boundary from the end of the file downward for the newest valid checkpoint. The bytes after
it are a damaged tail: they are reported and otherwise ignored.
-/

namespace CheckpointStore

/-- Why bytes at the end of a file were passed over. -/
inductive DamageReason where
  /-- The file does not end on a page boundary -/
  | trailingBytes (count : Nat)
  /-- No valid checkpoint ends at a page boundary that was tried -/
  | refused (error : StorageError)
  deriving DecidableEq, Repr

def DamageReason.text : DamageReason → String
  | .trailingBytes count => toString count ++ " trailing bytes after the last page boundary"
  | .refused error => error.text

/-- The tail of a file that holds no valid checkpoint. -/
structure TailDamage where
  /-- End of the newest valid checkpoint, or of the header -/
  validEnd : Nat
  fileSize : Nat
  reason : DamageReason
  deriving DecidableEq, Repr

def TailDamage.discardedBytes (damage : TailDamage) : Nat := damage.fileSize - damage.validEnd

/-- What loading finds in a file image. -/
structure Layout where
  header : Header
  /-- The newest valid checkpoint; none in a file that was never committed to -/
  current : Option Trailer
  fileSize : Nat
  /-- Set when bytes after the newest valid checkpoint were ignored -/
  damage : Option TailDamage
  deriving DecidableEq, Repr

namespace Layout

/-- The newest valid checkpoint that ends within the first `pages` pages but past the header, with
the first failure: the one given, or else that of the newest boundary that was refused. -/
def scan (image : Image) (pageSize : Nat) : Nat → Option DamageReason → Option (Trailer × Option DamageReason)
  | pages + 2, failure =>
    match validateCheckpoint image ((pages + 2) * pageSize) pageSize with
    | .ok trailer => some (trailer, failure)
    | .error error => scan image pageSize (pages + 1) (failure <|> some (.refused error))
  | _, _ => none

/-- Validates the header and finds the newest valid checkpoint. A file whose bytes past the header
reach no page boundary cannot hold a trailer, so they are damage over the empty store; any other
file without a valid checkpoint is refused. -/
def load (image : Image) : Except StorageError Layout :=
  match Header.decode image with
  | .error error => .error error
  | .ok header =>
    let fileSize := image.size
    let pages := fileSize / header.pageSize
    let trailing := fileSize % header.pageSize
    let failure := if trailing = 0 then none else some (DamageReason.trailingBytes trailing)
    let damageAt (stop : Nat) (reason : Option DamageReason) : Option TailDamage :=
      reason.map fun reason => ⟨stop, fileSize, reason⟩
    if pages = 1 then .ok ⟨header, none, fileSize, damageAt header.pageSize failure⟩
    else
      match scan image header.pageSize pages failure with
      | some (trailer, failure) =>
        .ok ⟨header, some trailer, fileSize, damageAt trailer.checkpointSize failure⟩
      | none => .error (.noValidCheckpoint fileSize)

end Layout
end CheckpointStore
