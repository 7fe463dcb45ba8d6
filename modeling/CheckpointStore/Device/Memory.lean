import CheckpointStore.Device.Basic

/-!
# Stores in memory

A byte store with a plan: each kind of call has a list of outcomes yet to come, and succeeds when
its list is empty. Calls are counted whether they succeed or not.
-/

namespace CheckpointStore

/-- What becomes of a call. -/
inductive Outcome where
  | succeed
  | fail
  /-- An append stops after so many bytes and fails; any other call does nothing and fails -/
  | short (count : Nat)
  deriving DecidableEq, Repr

/-- The outcomes planned for each kind of call. -/
structure Plan where
  reads : List Outcome := []
  appends : List Outcome := []
  syncs : List Outcome := []
  truncates : List Outcome := []
  deriving DecidableEq, Repr

/-- How often each kind of call was made. -/
structure Calls where
  reads : Nat := 0
  appends : Nat := 0
  syncs : Nat := 0
  truncates : Nat := 0
  deriving DecidableEq, Repr

/-- A byte store in memory. -/
structure MemoryStore where
  image : Image := .empty
  plan : Plan := {}
  calls : Calls := {}
  deriving DecidableEq

namespace MemoryStore

def nextOutcome : List Outcome → Outcome × List Outcome
  | [] => (.succeed, [])
  | outcome :: rest => (outcome, rest)

def refusal (call : String) : StorageError := .io (.worded ("store " ++ call)) (.worded "injected")

def answer (call : String) {α : Type} (result : α) : Outcome → Except StorageError α
  | .succeed => .ok result
  | _ => .error (refusal call)

def readAll (store : MemoryStore) : Except StorageError Image × MemoryStore :=
  let (outcome, reads) := nextOutcome store.plan.reads
  (answer "read" store.image outcome,
    { store with
      plan := { store.plan with reads }
      calls := { store.calls with reads := store.calls.reads + 1 } })

/-- How many of `size` bytes an append with this outcome writes. -/
def written (size : Nat) : Outcome → Nat
  | .succeed => size
  | .fail => 0
  | .short count => min count size

def append (store : MemoryStore) (bytes : Bytes) : Except StorageError Unit × MemoryStore :=
  let (outcome, appends) := nextOutcome store.plan.appends
  (answer "append" () outcome,
    { image := store.image ++ .ofBytes (bytes.take (written bytes.length outcome))
      plan := { store.plan with appends }
      calls := { store.calls with appends := store.calls.appends + 1 } })

def sync (store : MemoryStore) : Except StorageError Unit × MemoryStore :=
  let (outcome, syncs) := nextOutcome store.plan.syncs
  (answer "sync" () outcome,
    { store with
      plan := { store.plan with syncs }
      calls := { store.calls with syncs := store.calls.syncs + 1 } })

def truncate (store : MemoryStore) (size : Nat) : Except StorageError Unit × MemoryStore :=
  let (outcome, truncates) := nextOutcome store.plan.truncates
  (answer "truncate" () outcome,
    { image := if outcome = .succeed then store.image.take size else store.image
      plan := { store.plan with truncates }
      calls := { store.calls with truncates := store.calls.truncates + 1 } })

def device : Device (StateM MemoryStore) where
  location := "<memory>"
  readAll := readAll
  append bytes := fun store => store.append bytes
  sync := sync
  truncate size := fun store => store.truncate size
  reach _ := pure ()

end MemoryStore
end CheckpointStore
