import CheckpointStore.CommandLine.Arguments
import CheckpointStore.CommandLine.CommandError
import CheckpointStore.Handle.Commit
import CheckpointStore.Handle.Export
import CheckpointStore.Text.Lossy

/-!
# Running commands

Each command opens the database, does one thing, and answers with one JSON object. Writes are
committed before the answer.
-/

namespace CheckpointStore

/-- A command at work: it may fail, and what the database reports is kept. -/
abbrev Work (m : Type → Type) (α : Type) := ExceptT CommandError (StateT (List Event) m) α

namespace Work

variable {m : Type → Type} [Monad m]

/-- Takes over what a database operation reported and came to. -/
def report {α : Type} (reported : Reported α) : Work m α := do
  modify (· ++ reported.events)
  match reported.result with
  | .ok result => return result
  | .error error => throw (.ofDatabase error)

def openFile (host : Host m) (settings : Settings) (path : String) (mode : OpenMode) : Work m (OpenDatabase m) := do
  report (← (Handle.openPath host path mode settings : m _))

/-- Opens a database file for reading, as of a checkpoint if one is given. -/
def openView (host : Host m) (settings : Settings) (path : String) (checkpoint : Option Nat) : Work m Handle := do
  let database ← openFile host settings path .readOnly
  match checkpoint with
  | some checkpoint => report (database.handle.viewAt checkpoint)
  | none => return database.handle

def commit (database : OpenDatabase m) (handle : Handle) : Work m Nat := do
  let committed ← (handle.commit database.device : m _)
  report ⟨committed.result, committed.events⟩

def check {α : Type} : Except DatabaseError α → Work m α
  | .ok result => return result
  | .error error => throw (.ofDatabase error)

def create (host : Host m) (settings : Settings) (path : String) : Work m Value := do
  if ← (host.pathExists path : m _) then throw (.input (.alreadyExists path))
  let database ← openFile host settings path .createAndWrite
  return .ofFields [("path", .string path), ("page_size", .nat database.handle.pageSize),
    ("checkpoint", .nat database.handle.checkpoint)]

def put (host : Host m) (settings : Settings) (path key document : String) (mode : PutMode) : Work m Value := do
  match Json.parse? document with
  | none => throw (.input .notJson)
  | some document =>
    let database ← openFile host settings path .write
    let (written, handle) ← check (database.handle.putDocument (Bytes.ofString key) document mode)
    let checkpoint ← commit database handle
    return .ofFields [("key", .string key), ("written", .bool written), ("checkpoint", .nat checkpoint)]

def get (host : Host m) (settings : Settings) (path key : String) (checkpoint : Option Nat) : Work m Value := do
  let handle ← openView host settings path checkpoint
  let document ← check (handle.getDocument? (Bytes.ofString key))
  return .ofFields [("key", .string key), ("checkpoint", .nat handle.checkpoint), ("document", document.getD .null)]

def remove (host : Host m) (settings : Settings) (path key : String) : Work m Value := do
  let database ← openFile host settings path .write
  let (removed, handle) ← check (database.handle.remove (Bytes.ofString key))
  let checkpoint ← commit database handle
  return .ofFields [("key", .string key), ("removed", .bool removed), ("checkpoint", .nat checkpoint)]

def listed (entry : Bytes × Bytes) : Except DatabaseError Value :=
  match Value.decode entry.2 with
  | .ok document => .ok (.ofFields [("key", .string (Lossy.decode entry.1)), ("document", document)])
  | .error error => .error (.document error)

def list (host : Host m) (settings : Settings) (path : String) (checkpoint : Option Nat) : Work m Value := do
  let handle ← openView host settings path checkpoint
  let documents ← check (handle.documents.mapM listed)
  return .ofFields [("checkpoint", .nat handle.checkpoint), ("documents", .array documents)]

def showRecovery : Recovery → Value
  | .clean => .ofFields [("state", .string "clean")]
  | .damaged discardedBytes => .ofFields [("state", .string "damaged"), ("discarded_bytes", .nat discardedBytes)]

def statsFields (stats : Handle.Stats) : List (String × Value) :=
  [("checkpoint", .nat stats.checkpoint), ("previous_checkpoint", .nat stats.previousCheckpoint),
    ("checkpoints", .nat stats.checkpoints), ("documents", .nat stats.documents),
    ("pending_changes", .nat stats.pendingChanges), ("file_size", .nat stats.fileSize),
    ("page_size", .nat stats.pageSize), ("recovery", showRecovery stats.recovery)]

def info (host : Host m) (settings : Settings) (path : String) : Work m Value := do
  let database ← openFile host settings path .readOnly
  return .ofFields (statsFields database.handle.stats ++ [("damaged", .bool database.handle.recovery.isDamaged)])

def history (host : Host m) (settings : Settings) (path : String) : Work m Value := do
  let database ← openFile host settings path .readOnly
  return .ofFields [("checkpoints", .array (database.handle.history.map .nat))]

def compact (host : Host m) (settings : Settings) (path target : String) : Work m Value := do
  let database ← openFile host settings path .readOnly
  report (← (database.handle.exportTo host target : m _))
  return .ofFields [("target", .string target), ("documents", .nat database.handle.size)]

end Work

def Command.run {m : Type → Type} [Monad m] (host : Host m) (settings : Settings) : Command → Work m Value
  | .create path => Work.create host settings path
  | .put path key document mode => Work.put host settings path key document mode
  | .get path key checkpoint => Work.get host settings path key checkpoint
  | .remove path key => Work.remove host settings path key
  | .list path checkpoint => Work.list host settings path checkpoint
  | .info path => Work.info host settings path
  | .history path => Work.history host settings path
  | .compact path target => Work.compact host settings path target

def loadSettings {m : Type → Type} [Monad m] (host : Host m) (path : String) : m (Except SettingsError Settings) := do
  match ← host.readFile path with
  | .error cause => return .error (.unreadable cause)
  | .ok image => return Settings.decode image.bytes

/-- Runs a command under the settings that it asks for, and gives its answer and the reports. -/
def Invocation.run {m : Type → Type} [Monad m] (host : Host m) (invocation : Invocation) :
    m (Except CommandError Value × List Event) := do
  let settings ← match invocation.settingsPath with
    | some path => loadSettings host path
    | none => pure (.ok {})
  match settings with
  | .error error => return (.error (.settings error), [])
  | .ok settings => (invocation.command.run host settings).run.run []

def response (data : Value) : String := (Value.ofFields [("status", .string "ok"), ("data", data)]).text

end CheckpointStore
