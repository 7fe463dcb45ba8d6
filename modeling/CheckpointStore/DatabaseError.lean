import CheckpointStore.Json.Decode
import CheckpointStore.Settings
import CheckpointStore.StorageError

/-!
# Database errors

The failures of a handle's operations: those of its storage and documents, and those that only
the handle knows of.
-/

namespace CheckpointStore

/-- Why a handle takes no changes. -/
inductive ReadOnlyReason where
  | historicalView
  | openedReadOnly
  deriving DecidableEq, Repr

def ReadOnlyReason.text : ReadOnlyReason → String
  | .historicalView => "historical views cannot be modified"
  | .openedReadOnly => "database was opened read-only"

/-- A failure of a database operation. -/
inductive DatabaseError where
  | storage (error : StorageError)
  | document (error : DecodeError)
  | readOnly (reason : ReadOnlyReason)
  | unknownCheckpoint (checkpoint : Nat)
  | settings (error : SettingsError)
  /-- A failed commit left bytes that could not be cut off again -/
  | poisoned (location : String) (checkpoint : Nat)
  deriving DecidableEq, Repr

namespace DatabaseError

def code : DatabaseError → String
  | .storage error => error.code
  | .document _ => "KEEL_CODEC_ERROR"
  | .readOnly _ => "KEEL_READ_ONLY"
  | .unknownCheckpoint _ => "KEEL_UNKNOWN_CHECKPOINT"
  | .settings _ => "KEEL_CONFIG_ERROR"
  | .poisoned .. => "KEEL_COMMIT_POISONED"

def severity : DatabaseError → Severity
  | .storage error => error.severity
  | .poisoned .. => .fatal
  | _ => .error

/-- The code and what happened; storage errors have a form of their own. -/
def text (error : DatabaseError) : String :=
  match error with
  | .storage error => error.text
  | .document fault => error.code ++ ": " ++ fault.text
  | .readOnly reason => error.code ++ ": " ++ reason.text
  | .unknownCheckpoint checkpoint =>
    error.code ++ ": no checkpoint " ++ toString checkpoint ++ " in this database"
  | .settings fault => error.code ++ ": " ++ fault.text
  | .poisoned location checkpoint =>
    error.code ++ ": " ++ location ++ " may hold partial writes past checkpoint " ++ toString checkpoint
      ++ "; reopen the database"

end DatabaseError
end CheckpointStore
