import CheckpointStore.Files.FileSystem

/-!
# Replacing a whole file

The new bytes go to a sibling file, which is made durable and then renamed over the target, so
that a reader finds either the old file or the whole new one. Each step can be planned to fail.
-/

namespace CheckpointStore.FileSystem

/-- A step on the file system. -/
abbrev Step (α : Type) := ExceptT IoCause (StateM FileSystem) α

def nextStep : StateM FileSystem Outcome := fun files =>
  let (outcome, plan) := MemoryStore.nextOutcome files.plan
  (outcome, { files with plan })

/-- A step that fails and does nothing when the plan says so. -/
def planned {α : Type} (step : FileSystem → Except IoCause (α × FileSystem)) : Step α := do
  match ← nextStep with
  | .succeed =>
    match step (← get) with
    | .error cause => throw cause
    | .ok (result, files) => set files; return result
  | _ => throw (.worded "injected")

/-- Makes an empty file at a path, or empties the one that is there. -/
def createEmpty (path : String) : Step Nat :=
  planned fun files =>
    match files.fileForCreation path with
    | .error cause => .error cause
    | .ok (identity, files) => .ok (identity, files.setContent identity .empty)

/-- Writes bytes to an empty file; all of them, or as many as the plan says before it fails. -/
def writeContent (identity : Nat) (bytes : Bytes) : Step Unit := do
  let outcome ← nextStep
  let count := MemoryStore.written bytes.length outcome
  modify fun files => files.setContent identity (.ofBytes (bytes.take count))
  match outcome with
  | .succeed => return ()
  | _ => throw (.worded "injected")

def makeDurable : Step Unit := planned fun files => .ok ((), files)

/-- Makes the directory of a path durable, when the path names one. -/
def makeParentDurable (path : String) : Step Unit :=
  let parent := (Path.ofString path).parent.text
  if parent.isEmpty then pure ()
  else planned fun files => (files.stat parent).map fun _ => ((), files)

def replaceSteps (path : String) (bytes : Bytes) : Step Unit := do
  let identity ← createEmpty (Path.temporary path)
  writeContent identity bytes
  makeDurable
  planned fun files => (files.rename (Path.temporary path) path).map fun files => ((), files)
  makeParentDurable path

/-- Replaces the file at a path by these bytes. After a failure the sibling is removed, if it can
be. -/
def replace (path : String) (bytes : Bytes) : StateM FileSystem (Except IoCause Unit) := do
  match ← (replaceSteps path bytes).run with
  | .ok () => return .ok ()
  | .error cause =>
    modify fun files => (files.unlink (Path.temporary path)).toOption.getD files
    return .error cause

end CheckpointStore.FileSystem
