import CheckpointStore.CommandLine.Run
import CheckpointStore.Proofs.Appends
import CheckpointStore.Proofs.Stores
import CheckpointStore.Proofs.Texts

/-!
# Versions of a map

What a database is to those who use it by commands: versions of a map, newest first. A put or a removal
that applies makes one more version out of the newest, named by the size that the file then has. Every
other request only reads, or fails.
-/

namespace CheckpointStore

/-- A command on a database that is understood. -/
inductive Request where
  | create
  | put (key document : String) (mode : PutMode)
  | get (key : String) (checkpoint : Option Nat)
  | remove (key : String)
  | list (checkpoint : Option Nat)
  | info
  | history

def Request.command (path : String) : Request → Command
  | .create => .create path
  | .put key document mode => .put path key document mode
  | .get key checkpoint => .get path key checkpoint
  | .remove key => .remove path key
  | .list checkpoint => .list path checkpoint
  | .info => .info path
  | .history => .history path

/-- No number in a document that is put is a double. -/
def Request.Integral : Request → Prop
  | .put _ document _ => ∀ value, Json.parse? document = some value → value.doubles = []
  | _ => True

def Change.ofDocument (key : String) (document : Option Value) : Change := ⟨Bytes.ofString key, document.map Value.encode⟩

/-- A request, and the settings with which it is made. -/
structure Call where
  settings : Settings
  request : Request

/-- Documents under their keys, in no order. -/
abbrev Documents := List (String × Value)

namespace Documents

def put (documents : Documents) (key : String) (document : Value) : Documents :=
  (key, document) :: Entries.erase key documents

/-- The documents in the order of the bytes of their keys. -/
def inKeyOrder (documents : Documents) : Documents :=
  documents.mergeSort fun a b => (Bytes.order (Bytes.ofString a.1) (Bytes.ofString b.1)).isLE

end Documents

structure Version where
  checkpoint : Nat
  documents : Documents

/-- The version before the first. -/
def Version.zero : Version := ⟨0, []⟩

structure Versions where
  pageSize : Nat
  /-- The newest version first -/
  committed : List Version

namespace Versions

def newest (versions : Versions) : Version := versions.committed.head?.getD .zero

def fileSize (versions : Versions) : Nat := (versions.committed.head?.map Version.checkpoint).getD versions.pageSize

/-- The version that is asked for, or the newest. -/
def version? (versions : Versions) : Option Nat → Option Version
  | none => some versions.newest
  | some 0 => some .zero
  | some checkpoint => versions.committed.find? fun version => version.checkpoint = checkpoint

def view (versions : Versions) (checkpoint : Option Nat) : Except CommandError Version :=
  match versions.version? checkpoint with
  | some version => .ok version
  | none => .error (.database (.unknownCheckpoint (checkpoint.getD 0)))

/-! ### Changes -/

def changed (key word : String) (applied : Bool) (checkpoint : Nat) : Value :=
  .ofFields [("key", .string key), (word, .bool applied), ("checkpoint", .nat checkpoint)]

/-- One more version in which a key has a document, or none. Its name is the size of the file with the
block of the change and a trailer, up to a page boundary. -/
def next (versions : Versions) (key : String) (document : Option Value) : Version where
  checkpoint :=
    roundUp (versions.fileSize + (Change.ofDocument key document).encodedLength + Trailer.size) versions.pageSize
  documents :=
    match document with
    | some document => versions.newest.documents.put key document
    | none => Entries.erase key versions.newest.documents

/-- What a change answers, and the versions after it: one more where it applies, unless its block is too
large to be written. -/
def change (versions : Versions) (key word : String) (applies : Bool) (document : Option Value) :
    Except CommandError Value × Versions :=
  let length := (Change.ofDocument key document).encodedLength
  if applies = false then (.ok (changed key word false versions.newest.checkpoint), versions)
  else if Change.lengthLimit ≤ length then (.error (.database (.storage (.tooLarge (.blockLength length)))), versions)
  else
    let version := versions.next key document
    (.ok (changed key word true version.checkpoint), { versions with committed := version :: versions.committed })

def has (versions : Versions) (key : String) : Bool := (Entries.get? key versions.newest.documents).isSome

/-! ### Readings -/

def get (versions : Versions) (key : String) (checkpoint : Option Nat) : Except CommandError Value := do
  let version ← versions.view checkpoint
  return .ofFields [("key", .string key), ("checkpoint", .nat version.checkpoint),
    ("document", (Entries.get? key version.documents).getD .null)]

def list (versions : Versions) (checkpoint : Option Nat) : Except CommandError Value := do
  let version ← versions.view checkpoint
  return .ofFields [("checkpoint", .nat version.checkpoint),
    ("documents", .array (version.documents.inKeyOrder.map fun entry =>
      .ofFields [("key", .string entry.1), ("document", entry.2)]))]

def info (versions : Versions) : Value :=
  .ofFields [("checkpoint", .nat versions.newest.checkpoint),
    ("previous_checkpoint", .nat ((versions.committed.tail.head?.map Version.checkpoint).getD 0)),
    ("checkpoints", .nat versions.committed.length), ("documents", .nat versions.newest.documents.length),
    ("pending_changes", .nat 0), ("file_size", .nat versions.fileSize), ("page_size", .nat versions.pageSize),
    ("recovery", .ofFields [("state", .string "clean")]), ("damaged", .bool false)]

def history (versions : Versions) : Value :=
  .ofFields [("checkpoints", .array (versions.committed.map fun version => .nat version.checkpoint))]

end Versions

/-! ### Calls -/

/-- What is answered where the versions are needed, if there is a database. -/
def whereFound (path : String) (state : Option Versions) (act : Versions → Except CommandError Value × Versions) :
    Except CommandError Value × Option Versions :=
  match state with
  | none => (.error (.database (.storage (.io (.openDatabase path) .notFound))), none)
  | some versions => ((act versions).1, some (act versions).2)

namespace Call

/-- The answer to a call, and the versions after it, where there were these before or no database yet. -/
def answer (path : String) (call : Call) (state : Option Versions) : Except CommandError Value × Option Versions :=
  match call.request with
  | .create =>
    match state with
    | none =>
      (.ok (.ofFields [("path", .string path), ("page_size", .nat call.settings.pageSize), ("checkpoint", .nat 0)]),
        some ⟨call.settings.pageSize, []⟩)
    | some versions => (.error (.input (.alreadyExists path)), some versions)
  | .put key document mode =>
    match Json.parse? document with
    | none => (.error (.input .notJson), state)
    | some document => whereFound path state fun versions =>
        versions.change key "written" (mode.allows (versions.has key)) (some document)
  | .remove key => whereFound path state fun versions => versions.change key "removed" (versions.has key) none
  | .get key checkpoint => whereFound path state fun versions => (versions.get key checkpoint, versions)
  | .list checkpoint => whereFound path state fun versions => (versions.list checkpoint, versions)
  | .info => whereFound path state fun versions => (.ok versions.info, versions)
  | .history => whereFound path state fun versions => (.ok versions.history, versions)

end Call

/-- The outputs of a machine for inputs one after the other, and its last state. -/
def inTurn {σ ι ο : Type} (step : ι → σ → ο × σ) (state : σ) : List ι → List ο × σ
  | [] => ([], state)
  | input :: rest =>
    ((step input state).1 :: (inTurn step (step input state).2 rest).1, (inTurn step (step input state).2 rest).2)

/-! ### What a call does to the versions -/

section Steps

variable {path : String} {call : Call} {state : Option Versions} {versions : Versions}

theorem Versions.change_of_error {key word : String} {applies : Bool} {document : Option Value} {error : CommandError}
    (failed : (versions.change key word applies document).1 = .error error) :
    (versions.change key word applies document).2 = versions := by
  unfold change at failed ⊢
  dsimp only at failed ⊢
  split
  · rfl
  split
  · rfl
  · rename_i applied fits
    rw [if_neg applied, if_neg fits] at failed
    contradiction

/-- A call that fails changes nothing. -/
theorem Call.answer_of_error {error : CommandError} (failed : (call.answer path state).1 = .error error) :
    (call.answer path state).2 = state := by
  obtain ⟨settings, request⟩ := call
  unfold answer whereFound at failed ⊢
  dsimp only at failed ⊢
  cases request with
  | create =>
    cases state with
    | none => contradiction
    | some versions => rfl
  | put key document mode =>
    dsimp only at failed ⊢
    cases parsed : Json.parse? document with
    | none => rfl
    | some document =>
      rw [parsed] at failed
      cases state with
      | none => rfl
      | some versions => exact congrArg some (Versions.change_of_error failed)
  | remove key =>
    cases state with
    | none => rfl
    | some versions => exact congrArg some (Versions.change_of_error failed)
  | _ => cases state <;> rfl

/-- Versions are only ever added, and a file with more of them is no shorter. -/
def Versions.Grown (before after : Versions) : Prop :=
  after.pageSize = before.pageSize ∧ before.committed <:+ after.committed ∧ before.fileSize ≤ after.fileSize

theorem Versions.Grown.trans {a b c : Versions} (first : a.Grown b) (second : b.Grown c) : a.Grown c :=
  ⟨second.1.trans first.1, first.2.1.trans second.2.1, Nat.le_trans first.2.2 second.2.2⟩

theorem Versions.Grown.refl (versions : Versions) : versions.Grown versions := ⟨rfl, List.suffix_rfl, Nat.le_refl _⟩

theorem Versions.grown_change (positive : 0 < versions.pageSize) (key word : String) (applies : Bool) (document : Option Value) :
    versions.Grown (versions.change key word applies document).2 := by
  unfold change
  dsimp only
  split
  · exact .refl versions
  split
  · exact .refl versions
  · refine ⟨rfl, List.suffix_cons _ _, ?_⟩
    have room := le_roundUp (versions.fileSize + (Change.ofDocument key document).encodedLength + Trailer.size) positive
    exact Nat.le_trans (by omega) room

theorem Call.grown_answer (positive : 0 < versions.pageSize) (path : String) (call : Call) :
    ∃ after, (call.answer path (some versions)).2 = some after ∧ versions.Grown after := by
  obtain ⟨settings, request⟩ := call
  unfold answer whereFound
  cases request with
  | put key document mode =>
    dsimp only
    cases Json.parse? document with
    | none => exact ⟨versions, rfl, .refl versions⟩
    | some document => exact ⟨_, rfl, Versions.grown_change positive _ _ _ _⟩
  | remove key => exact ⟨_, rfl, Versions.grown_change positive _ _ _ _⟩
  | _ => exact ⟨versions, rfl, .refl versions⟩

theorem Call.paged_answer (valid : call.settings.validate = .ok ()) (paged : ∀ versions, state = some versions → 0 < versions.pageSize)
    (answered : (call.answer path state).2 = some versions) : 0 < versions.pageSize := by
  cases state with
  | some before =>
    have positive := paged before rfl
    obtain ⟨after, same, grown⟩ := Call.grown_answer positive path call
    obtain rfl := Option.some.inj (answered.symm.trans same)
    rw [grown.1]
    exact positive
  | none =>
    obtain ⟨settings, request⟩ := call
    unfold answer whereFound at answered
    cases request with
    | create =>
      obtain rfl := Option.some.inj answered
      have bounds := pageSize_pos (Handle.isPageSize_of_validate valid)
      exact Nat.lt_of_lt_of_le (by decide) bounds.1
    | put key document mode =>
      dsimp only at answered
      split at answered <;> contradiction
    | _ => contradiction

theorem grown_inTurn (positive : 0 < versions.pageSize) (path : String) (calls : List Call) :
    ∃ after, (inTurn (Call.answer path) (some versions) calls).2 = some after ∧ versions.Grown after := by
  induction calls generalizing versions with
  | nil => exact ⟨versions, rfl, .refl versions⟩
  | cons call rest ih =>
    obtain ⟨between, answered, grown⟩ := Call.grown_answer positive path call
    have paged : 0 < between.pageSize := grown.1 ▸ positive
    obtain ⟨after, ran, further⟩ := ih paged
    refine ⟨after, ?_, grown.trans further⟩
    rw [inTurn, answered]
    exact ran

end Steps

end CheckpointStore
