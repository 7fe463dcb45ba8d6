import CheckpointStore.DatabaseError

/-!
# Events

What a database reports while it works. Every report is of one kind, which fixes its name and
level, and carries a sentence and named fields.
-/

namespace CheckpointStore

/-- How a database is opened. -/
inductive OpenMode where
  /-- For writing; a missing or empty file is given a header -/
  | createAndWrite
  | write
  | readOnly
  deriving DecidableEq, Repr

def OpenMode.text : OpenMode → String
  | .createAndWrite => "CreateAndWrite"
  | .write => "Write"
  | .readOnly => "ReadOnly"

def OpenMode.isWritable : OpenMode → Bool
  | .readOnly => false
  | _ => true

/-- How loud an event is. -/
inductive Level where
  | debug
  | info
  | warn
  | error
  deriving DecidableEq, Repr

def Level.text : Level → String
  | .debug => "DEBUG"
  | .info => "INFO"
  | .warn => "WARN"
  | .error => "ERROR"

/-- The kinds of events. -/
inductive EventKind where
  | openBegin
  | openComplete
  | openFailed
  | tailDamageRecovered
  | historicalViewOpened
  | commitBegin
  | commitComplete
  | commitSkipped
  | commitFailed
  | changesReverted
  | exportBegin
  | exportComplete
  | exportFailed
  deriving DecidableEq, Repr

namespace EventKind

def all : List EventKind :=
  [.openBegin, .openComplete, .openFailed, .tailDamageRecovered, .historicalViewOpened, .commitBegin,
    .commitComplete, .commitSkipped, .commitFailed, .changesReverted, .exportBegin, .exportComplete, .exportFailed]

def name : EventKind → String
  | .openBegin => "DB_OPEN_BEGIN"
  | .openComplete => "DB_OPEN_COMPLETE"
  | .openFailed => "DB_OPEN_FAILED"
  | .tailDamageRecovered => "TAIL_DAMAGE_RECOVERED"
  | .historicalViewOpened => "HISTORICAL_VIEW_OPENED"
  | .commitBegin => "COMMIT_BEGIN"
  | .commitComplete => "COMMIT_COMPLETE"
  | .commitSkipped => "COMMIT_SKIPPED"
  | .commitFailed => "COMMIT_FAILED"
  | .changesReverted => "CHANGES_REVERTED"
  | .exportBegin => "EXPORT_BEGIN"
  | .exportComplete => "EXPORT_COMPLETE"
  | .exportFailed => "EXPORT_FAILED"

/-- Failures are errors, damage is a warning, finished work is news, all else is detail. -/
def level : EventKind → Level
  | .openFailed | .commitFailed | .exportFailed => .error
  | .tailDamageRecovered => .warn
  | .openComplete | .commitComplete | .exportComplete | .historicalViewOpened => .info
  | .openBegin | .commitBegin | .commitSkipped | .changesReverted | .exportBegin => .debug

def isFatal : EventKind → Bool
  | .openFailed => true
  | _ => false

end EventKind

/-- A report with its particulars. -/
inductive Event where
  | openBegin (location : String) (mode : OpenMode)
  | openComplete (location : String) (checkpoint documents : Nat) (damaged : Bool)
  | openFailed (location : String) (error : DatabaseError)
  | fileNotOpened (path : String) (error : StorageError)
  | tailDamageRecovered (location : String) (checkpoint discardedBytes : Nat) (reason : String)
  | historicalViewOpened (location : String) (checkpoint documents : Nat)
  | commitBegin (location : String) (blocks fileSize : Nat)
  | commitComplete (location : String) (checkpoint previous blocks bytes : Nat)
  | commitSkipped (location : String) (checkpoint : Nat)
  | commitFailed (location : String) (error : StorageError)
  /-- The bytes of a failed commit could not be cut off -/
  | cutFailed (location : String) (fileSize : Nat) (error : StorageError)
  | changesReverted (location : String) (discarded : Nat)
  | exportBegin (location target : String)
  | exportComplete (target : String) (documents bytes : Nat)
  | exportFailed (target : String) (error : DatabaseError)
  deriving DecidableEq, Repr

namespace Event

def kind : Event → EventKind
  | .openBegin .. => .openBegin
  | .openComplete .. => .openComplete
  | .openFailed .. | .fileNotOpened .. => .openFailed
  | .tailDamageRecovered .. => .tailDamageRecovered
  | .historicalViewOpened .. => .historicalViewOpened
  | .commitBegin .. => .commitBegin
  | .commitComplete .. => .commitComplete
  | .commitSkipped .. => .commitSkipped
  | .commitFailed .. | .cutFailed .. => .commitFailed
  | .changesReverted .. => .changesReverted
  | .exportBegin .. => .exportBegin
  | .exportComplete .. => .exportComplete
  | .exportFailed .. => .exportFailed

def message : Event → String
  | .openBegin .. => "opening database"
  | .openComplete .. => "database open"
  | .openFailed .. | .fileNotOpened .. => "open failed"
  | .tailDamageRecovered .. => "ignoring damaged tail"
  | .historicalViewOpened .. => "historical view opened"
  | .commitBegin .. => "commit started"
  | .commitComplete .. => "checkpoint appended"
  | .commitSkipped .. => "nothing to commit"
  | .commitFailed .. => "commit failed, changes kept"
  | .cutFailed .. => "could not cut failed append back off the file"
  | .changesReverted .. => "staged changes discarded"
  | .exportBegin .. => "export started"
  | .exportComplete .. => "compacted copy written"
  | .exportFailed .. => "export failed"

def fields : Event → List (String × String)
  | .openBegin location mode => [("location", location), ("mode", mode.text)]
  | .openComplete location checkpoint documents damaged =>
    [("location", location), ("checkpoint", toString checkpoint), ("documents", toString documents),
      ("damaged", if damaged then "true" else "false")]
  | .openFailed location error => [("location", location), ("code", error.code), ("error", error.text)]
  | .fileNotOpened path error => [("path", path), ("code", error.code), ("error", error.text)]
  | .tailDamageRecovered location checkpoint discardedBytes reason =>
    [("location", location), ("checkpoint", toString checkpoint),
      ("discarded_bytes", toString discardedBytes), ("reason", reason)]
  | .historicalViewOpened location checkpoint documents =>
    [("location", location), ("checkpoint", toString checkpoint), ("documents", toString documents)]
  | .commitBegin location blocks fileSize =>
    [("location", location), ("blocks", toString blocks), ("file_len", toString fileSize)]
  | .commitComplete location checkpoint previous blocks bytes =>
    [("location", location), ("checkpoint", toString checkpoint), ("previous", toString previous),
      ("blocks", toString blocks), ("bytes", toString bytes)]
  | .commitSkipped location checkpoint => [("location", location), ("checkpoint", toString checkpoint)]
  | .commitFailed location error => [("location", location), ("code", error.code), ("error", error.text)]
  | .cutFailed location fileSize error =>
    [("location", location), ("file_len", toString fileSize), ("error", error.text)]
  | .changesReverted location discarded => [("location", location), ("discarded", toString discarded)]
  | .exportBegin location target => [("location", location), ("target", target)]
  | .exportComplete target documents bytes =>
    [("target", target), ("documents", toString documents), ("bytes", toString bytes)]
  | .exportFailed target error => [("target", target), ("code", error.code), ("error", error.text)]

end Event
end CheckpointStore
