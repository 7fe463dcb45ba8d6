import CheckpointStore.Format.Header
import CheckpointStore.Json.Decode

/-!
# Settings

The page size of new files and whether commits wait for the disk. A settings file is a JSON
object, or an array with the settings in order; what is left out keeps its default.
-/

namespace CheckpointStore

/-- Settings of a database. -/
structure Settings where
  /-- Page size of new files; an existing file keeps its own -/
  pageSize : Nat := 4096
  /-- Make blocks and trailer durable at every commit -/
  syncOnCommit : Bool := true
  deriving DecidableEq, Repr

/-- Why settings are refused. -/
inductive SettingsError where
  | unreadable (cause : IoCause)
  | malformed
  | pageSize (found : Nat)
  | worded (text : String)
  deriving DecidableEq, Repr

def SettingsError.text : SettingsError → String
  | .unreadable cause => "Failed to read config: " ++ cause.text
  | .malformed => "Invalid config JSON"
  | .pageSize found =>
    "Invalid page_size: " ++ toString found ++ ". Must be a power of two between 512 and 65536."
  | .worded text => text

namespace Settings

open Json

def validate (settings : Settings) : Except SettingsError Unit :=
  if isPageSize settings.pageSize then .ok () else .error (.pageSize settings.pageSize)

def pageSizeOf? : Tree → Option Nat
  | .atom (.number text) =>
    match text.value? with
    | some (.integer n) => if 0 ≤ n ∧ n < 4294967296 then some n.toNat else none
    | _ => none
  | _ => none

def boolOf? : Tree → Option Bool
  | .atom (.bool value) => some value
  | _ => none

/-- The settings of an object's members. Unknown members are passed over, whatever they hold; a
setting that was given already is refused. -/
def ofMembers? (pageSize : Option Nat) (sync : Option Bool) : List (List Piece × Tree) → Option Settings
  | [] => some { pageSize := pageSize.getD 4096, syncOnCommit := sync.getD true }
  | (key, tree) :: rest =>
    match stringOf? key with
    | none => none
    | some "page_size" =>
      match pageSize, pageSizeOf? tree with
      | none, some size => ofMembers? (some size) sync rest
      | _, _ => none
    | some "sync_on_commit" =>
      match sync, boolOf? tree with
      | none, some value => ofMembers? pageSize (some value) rest
      | _, _ => none
    | some _ => ofMembers? pageSize sync rest

def ofTree? : Tree → Option Settings
  | .object members => ofMembers? none none members
  | .array [] => some {}
  | .array [size] => (pageSizeOf? size).map fun size => { pageSize := size }
  | .array [size, sync] =>
    match pageSizeOf? size, boolOf? sync with
    | some size, some sync => some { pageSize := size, syncOnCommit := sync }
    | _, _ => none
  | _ => none

def decode (bytes : Bytes) : Except SettingsError Settings :=
  match bytes.toString? with
  | none => .error (.unreadable .notUtf8)
  | some text =>
    match (Token.ofText? [] text.toList).bind Tree.ofTokens? |>.bind ofTree? with
    | none => .error .malformed
    | some settings =>
      match settings.validate with
      | .ok () => .ok settings
      | .error error => .error error

end Settings
end CheckpointStore
