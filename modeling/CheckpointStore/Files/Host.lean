import CheckpointStore.Files.Replace

/-!
# Hosts

What a program needs of the system it runs on. The modelled host is a file system in which a
process may die at one crash point: then nothing more happens and the files stay as they are.
-/

namespace CheckpointStore

/-- The services of a system. -/
structure Host (m : Type → Type) where
  pathExists : String → m Bool
  readFile : String → m (Except IoCause Image)
  /-- Opens a database file, for writing or not, and makes it when it is missing and that is wanted -/
  openDevice : String → (writable create : Bool) → m (Except StorageError (Device m))
  replaceFile : String → Bytes → m (Except StorageError Unit)
  reach : CrashPoint → m Unit

/-- A file that a process has open. -/
structure OpenFile where
  path : String
  entry : Entry
  writable : Bool
  deriving DecidableEq, Repr

namespace FileSystem

/-- A process on the file system, which may die at a crash point. -/
abbrev Execution (α : Type) := ExceptT CrashPoint (StateM FileSystem) α

def die (armed : Option CrashPoint) (point : CrashPoint) : Execution Unit :=
  if armed = some point then throw point else pure ()

def reportAs {α : Type} (task : IoTask) : Except IoCause α → Except StorageError α
  | .ok result => .ok result
  | .error cause => .error (.io task cause)

/-- Opens a file. A directory can be opened for reading, although nothing can be read from it. -/
def openFile (files : FileSystem) (path : String) (writable create : Bool) :
    Except StorageError OpenFile × FileSystem :=
  let found : Except IoCause (Entry × FileSystem) :=
    if writable && create then (files.fileForCreation path).map fun (identity, files) => (.file identity, files)
    else if writable then (files.fileForWriting path).map fun identity => (.file identity, files)
    else (files.stat path).map (·, files)
  match found with
  | .ok (entry, files) => (.ok ⟨path, entry, writable⟩, files)
  | .error cause => (.error (.io (.openDatabase path) cause), files)

/-- Cuts or extends an open file to a size, if it was opened for writing. -/
def resizeOpen (files : FileSystem) (file : OpenFile) (size : Nat) : Except IoCause FileSystem :=
  if size > maxSize then .error .sizeTooLarge
  else
    match file.entry, file.writable with
    | .file identity, true => .ok (files.resizeContent identity size)
    | _, _ => .error .invalidArgument

/-- An open file as a device. It is read and appended to by its path, but made durable and cut as
the file that was opened. -/
def device (armed : Option CrashPoint) (file : OpenFile) : Device FileSystem.Execution where
  location := file.path
  readAll := do return reportAs (.read file.path) ((← get).read file.path)
  append bytes := do
    let (result, files) := (← get).append file.path bytes
    set files
    return reportAs (.append file.path) result
  sync := pure (.ok ())
  truncate size := do
    match (← get).resizeOpen file size with
    | .ok files => set files; return .ok ()
    | .error cause => return .error (.io (.truncate file.path size) cause)
  reach := die armed

def host (armed : Option CrashPoint) : Host FileSystem.Execution where
  pathExists path := do return (← get).pathExists path
  readFile path := do return (← get).read path
  openDevice path writable create := do
    let (result, files) := (← get).openFile path writable create
    set files
    return result.map (device armed)
  replaceFile path bytes := do return reportAs (.replace path) (← (replace path bytes : StateM FileSystem _))
  reach := die armed

end FileSystem
end CheckpointStore
