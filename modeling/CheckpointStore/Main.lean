import CheckpointStore.CommandLine.Run

/-!
# The program

Runs one command on the files of the system. The answer goes to standard output; complaints and
the louder reports go to standard error.
-/

namespace CheckpointStore

/-- A process on the system, which may die at a crash point. -/
abbrev SystemExecution (α : Type) := ExceptT CrashPoint IO α

namespace SystemExecution

def causeOf : IO.Error → IoCause
  | .noFileOrDirectory .. => .notFound
  | .resourceBusy .. => .busy
  | .inappropriateType .. => .isDirectory
  | .invalidArgument .. => .invalidArgument
  | error => .worded (toString error)

def attempt {α : Type} (call : IO α) : SystemExecution (Except IoCause α) := do
  match ← call.toBaseIO with
  | .ok result => return .ok result
  | .error error => return .error (causeOf error)

def die (armed : Option CrashPoint) (point : CrashPoint) : SystemExecution Unit :=
  if armed = some point then throw point else pure ()

def cut (path : String) (size : Nat) : IO Unit := do
  let handle ← IO.FS.Handle.mk path .readWrite
  let _ ← handle.read size.toUSize
  handle.truncate

def device (armed : Option CrashPoint) (path : String) : Device SystemExecution where
  location := path
  readAll := do
    return FileSystem.reportAs (.read path) ((← attempt (IO.FS.readBinFile path)).map Image.mk)
  append bytes := do
    let write : IO Unit := do
      let _ ← IO.FS.Handle.mk path .readWrite
      let handle ← IO.FS.Handle.mk path .append
      handle.write bytes.toByteArray
      handle.flush
    return FileSystem.reportAs (.append path) (← attempt write)
  sync := pure (.ok ())
  truncate size := do return FileSystem.reportAs (.truncate path size) (← attempt (cut path size))
  reach := die armed

def replace (path : String) (bytes : Bytes) : IO Unit := do
  let temporary := Path.temporary path
  try
    IO.FS.writeBinFile temporary bytes.toByteArray
    IO.FS.rename temporary path
  catch error =>
    try IO.FS.removeFile temporary catch _ => pure ()
    throw error

def host (armed : Option CrashPoint) : Host SystemExecution where
  pathExists path := do return (← attempt (IO.FS.Handle.mk path .read)).toOption.isSome
  readFile path := do return (← attempt (IO.FS.readBinFile path)).map Image.mk
  openDevice path writable create := do
    let mode : IO.FS.Mode := if writable && create then .append else if writable then .readWrite else .read
    let opened ← attempt (IO.FS.Handle.mk path mode)
    return FileSystem.reportAs (.openDatabase path) (opened.map fun _ => device armed path)
  replaceFile path bytes := do return FileSystem.reportAs (.replace path) (← attempt (replace path bytes))
  reach := die armed

end SystemExecution

def Event.line (event : Event) : String :=
  event.kind.level.text ++ " " ++ event.kind.name ++ " " ++ event.message
    ++ String.join (event.fields.map fun (name, value) => " " ++ name ++ "=" ++ value)

end CheckpointStore

open CheckpointStore in
def main (arguments : List String) : IO UInt32 := do
  match Invocation.ofArguments? arguments with
  | none =>
    IO.eprintln "usage: keeldb [--config FILE] create|put|get|remove|list|info|history|export DB ..."
    return 2
  | some invocation =>
    let armed := (← IO.getEnv "KEELDB_CRASH_POINT").bind CrashPoint.ofName?
    match ← (invocation.run (SystemExecution.host armed)).run with
    | .error point =>
      IO.eprintln ("[CRASH] Triggering crash at point: " ++ point.name)
      return 134
    | .ok (result, events) =>
      for event in events do
        if event.kind.level = .warn ∨ event.kind.level = .error then IO.eprintln event.line
      match result with
      | .ok data =>
        IO.println (response data)
        return 0
      | .error error =>
        IO.eprintln error.text
        return 1
