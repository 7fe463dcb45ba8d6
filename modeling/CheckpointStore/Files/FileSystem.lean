import CheckpointStore.Files.Path
import CheckpointStore.Files.Content
import CheckpointStore.Device.Memory

/-!
# A file system

A tree of directories in which names stand for files. A file has an identity apart from its
names: an open file stays what it is when its name comes to stand for another. The current
directory lies in the root, under a name that no path can spell.
-/

namespace CheckpointStore

/-- What a name stands for. -/
inductive Entry where
  | directory
  | file (identity : Nat)
  deriving DecidableEq, Repr

/-- Directories, names and file contents. -/
structure FileSystem where
  /-- Paths from the root, name by name, and what they stand for -/
  entries : List (List String × Entry) := []
  contents : List (Nat × FileContent) := []
  fresh : Nat := 0
  /-- Outcomes planned for the next steps of replacing a file -/
  plan : List Outcome := []
  deriving DecidableEq

/-- Where a path leads. -/
inductive Place where
  /-- A directory reached through dots, or the root -/
  | directory (path : List String)
  /-- A last name, which must be a directory's when a slash follows it -/
  | named (path : List String) (slash : Bool)
  deriving DecidableEq, Repr

namespace FileSystem

def maxName : Nat := 255

def maxPath : Nat := 4095

def maxSize : Nat := 9223372036854775807

def currentDirectory : List String := ["."]

def entry? (files : FileSystem) (path : List String) : Option Entry :=
  if path = [] ∨ path = currentDirectory then some .directory
  else (files.entries.find? fun entry => entry.1 == path).map (·.2)

/-- What a path of names stands for, when its last name is not too long to look for. -/
def find (files : FileSystem) (path : List String) : Except IoCause (Option Entry) :=
  if (path.getLast?.getD "").utf8ByteSize > maxName then .error .nameTooLong else .ok (files.entry? path)

def stored (files : FileSystem) (identity : Nat) : FileContent :=
  ((files.contents.find? fun content => content.1 == identity).map (·.2)).getD {}

def content (files : FileSystem) (identity : Nat) : Image := (files.stored identity).image

def setEntry (files : FileSystem) (path : List String) (entry : Option Entry) : FileSystem :=
  { files with
    entries := (entry.toList.map fun entry => (path, entry)) ++ files.entries.filter fun entry => entry.1 != path }

def store (files : FileSystem) (identity : Nat) (content : FileContent) : FileSystem :=
  { files with
    contents := (identity, content) :: files.contents.filter fun content => content.1 != identity }

def setContent (files : FileSystem) (identity : Nat) (image : Image) : FileSystem :=
  files.store identity (.ofImage image)

def resizeContent (files : FileSystem) (identity : Nat) (size : Nat) : FileSystem :=
  files.store identity ((files.stored identity).resize size)

/-- The file system with a new empty file at a path, and the file's identity. -/
def addFile (files : FileSystem) (path : List String) : Nat × FileSystem :=
  (files.fresh, ({ files with fresh := files.fresh + 1 }.setContent files.fresh .empty).setEntry path (some (.file files.fresh)))

/-- Follows the parts of a path from a directory. The last name is not looked for. -/
def walk (files : FileSystem) (here : List String) : List String → Except IoCause Place
  | [] => .ok (.directory here)
  | part :: rest =>
    if part = "" ∨ part = "." then files.walk here rest
    else if part = ".." then files.walk here.dropLast rest
    else if rest.all (· == "") then .ok (.named (here ++ [part]) (!rest.isEmpty))
    else
      match files.find (here ++ [part]) with
      | .error cause => .error cause
      | .ok (some .directory) => files.walk (here ++ [part]) rest
      | .ok (some (.file _)) => .error .notDirectory
      | .ok none => .error .notFound

/-- Where a path leads: from the root when it starts with a slash, else from the current directory. -/
def resolve (files : FileSystem) (path : String) : Except IoCause Place :=
  if path.contains '\x00' then .error .nulInPath
  else if path.isEmpty then .error .notFound
  else if path.utf8ByteSize > maxPath then .error .nameTooLong
  else
    match path.splitOn "/" with
    | "" :: parts => files.walk [] parts
    | parts => files.walk currentDirectory parts

def stat (files : FileSystem) (path : String) : Except IoCause Entry :=
  match files.resolve path with
  | .error cause => .error cause
  | .ok (.directory _) => .ok .directory
  | .ok (.named names slash) =>
    match files.find names with
    | .error cause => .error cause
    | .ok none => .error .notFound
    | .ok (some .directory) => .ok .directory
    | .ok (some (.file identity)) => if slash then .error .notDirectory else .ok (.file identity)

def pathExists (files : FileSystem) (path : String) : Bool := (files.stat path).toOption.isSome

def fileForWriting (files : FileSystem) (path : String) : Except IoCause Nat :=
  match files.stat path with
  | .error cause => .error cause
  | .ok .directory => .error .isDirectory
  | .ok (.file identity) => .ok identity

/-- The file at a path, for writing, made when it is missing. A slash at the end asks for a
directory, whether or not the name could be one. -/
def fileForCreation (files : FileSystem) (path : String) : Except IoCause (Nat × FileSystem) :=
  match files.resolve path with
  | .error cause => .error cause
  | .ok (.directory _) => .error .isDirectory
  | .ok (.named names slash) =>
    if slash then .error .isDirectory
    else
      match files.find names with
      | .error cause => .error cause
      | .ok (some .directory) => .error .isDirectory
      | .ok (some (.file identity)) => .ok (identity, files)
      | .ok none => .ok (files.addFile names)

def read (files : FileSystem) (path : String) : Except IoCause Image :=
  match files.stat path with
  | .error cause => .error cause
  | .ok .directory => .error .isDirectory
  | .ok (.file identity) => .ok (files.content identity)

def append (files : FileSystem) (path : String) (bytes : Bytes) : Except IoCause Unit × FileSystem :=
  match files.fileForWriting path with
  | .error cause => (.error cause, files)
  | .ok identity => (.ok (), files.store identity ((files.stored identity).append bytes))

def makeDirectory (files : FileSystem) (path : String) : Bool × FileSystem :=
  match files.resolve path with
  | .ok (.named names _) =>
    match files.find names with
    | .ok none => (true, files.setEntry names (some .directory))
    | _ => (false, files)
  | _ => (false, files)

/-- Gives the file of one path another path, over any file that is there. -/
def rename (files : FileSystem) (source target : String) : Except IoCause FileSystem :=
  match files.resolve source, files.resolve target with
  | .error cause, _ | _, .error cause => .error cause
  | .ok (.directory _), _ | _, .ok (.directory _) => .error .busy
  | .ok (.named sourceNames _), .ok (.named targetNames slash) =>
    match files.find sourceNames, files.find targetNames with
    | .error cause, _ | .ok (some _), .error cause => .error cause
    | .ok none, _ => .error .notFound
    | .ok (some .directory), _ => .error .isDirectory
    | .ok (some (.file identity)), .ok there =>
      if slash then .error .notDirectory
      else if there = some .directory then .error .isDirectory
      else .ok ((files.setEntry sourceNames none).setEntry targetNames (some (.file identity)))

def unlink (files : FileSystem) (path : String) : Except IoCause FileSystem :=
  match files.resolve path with
  | .error cause => .error cause
  | .ok (.directory _) => .error .isDirectory
  | .ok (.named names _) =>
    match files.find names with
    | .error cause => .error cause
    | .ok none => .error .notFound
    | .ok (some .directory) => .error .isDirectory
    | .ok (some (.file _)) => .ok (files.setEntry names none)

def currentNames (files : FileSystem) : List String :=
  files.entries.filterMap fun (path, _) =>
    match path with
    | [directory, name] => if [directory] = currentDirectory then some name else none
    | _ => none

end FileSystem
end CheckpointStore
