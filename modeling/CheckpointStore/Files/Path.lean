/-!
# Paths

The parts of a path as text: its last name, its parent, and the path of a sibling. Slashes and
single dots at the end do not count; those further in front are kept as they are written, so a
parent is always a beginning of its path.
-/

namespace CheckpointStore

/-- A path cut at its slashes. What stands before the first slash is apart: it is empty when the
path starts at the root, and a single dot there does count. -/
structure Path where
  head : String
  tail : List String
  deriving DecidableEq, Repr

namespace Path

def ofString (text : String) : Path :=
  match text.splitOn "/" with
  | [] => ⟨text, []⟩
  | head :: tail => ⟨head, tail⟩

def text (path : Path) : String := "/".intercalate (path.head :: path.tail)

/-- Leaves out what does not count at the end. The root keeps its slash. -/
def trim (path : Path) : Path :=
  match (path.tail.reverse.dropWhile fun name => name == "" || name == ".").reverse with
  | [] => if path.head == "" && !path.tail.isEmpty then ⟨"", [""]⟩ else ⟨path.head, []⟩
  | tail => ⟨path.head, tail⟩

def fileName? (path : Path) : Option String :=
  let name := path.trim.tail.getLast?.getD path.head
  if name == "" || name == "." || name == ".." then none else some name

def parent (path : Path) : Path :=
  match path.trim.tail with
  | [] => ⟨"", []⟩
  | tail => trim ⟨path.head, tail.dropLast ++ [""]⟩

def join (directory name : String) : String :=
  if directory.isEmpty || directory.toList.getLast? == some '/' then directory ++ name
  else directory ++ "/" ++ name

/-- The path of the file that is written before it takes the place of the target: the target's
sibling, or a file below it when the target ends in no name. -/
def temporary (target : String) : String :=
  let path := ofString target
  match path.fileName? with
  | some name => join path.parent.text (name ++ ".tmp")
  | none => join target ".tmp"

end Path
end CheckpointStore
