import CheckpointStore.Bytes.Hex

/-!
# Storage errors

What can go wrong between a database and its bytes, as causes. Each error has a stable code, a
severity that follows from the code, and one text built from its parts.
-/

namespace CheckpointStore

/-- How far an error reaches. -/
inductive Severity where
  /-- The operation fails and the handle stays usable -/
  | error
  | fatal
  deriving DecidableEq, Repr

def Severity.text : Severity → String
  | .error => "ERROR"
  | .fatal => "FATAL"

/-- Why the operating system, or a store in its place, refused. -/
inductive IoCause where
  | notFound
  | busy
  | notDirectory
  | isDirectory
  | invalidArgument
  | nameTooLong
  /-- A size is beyond what the system can express -/
  | sizeTooLarge
  | nulInPath
  /-- A text file holds bytes that are not UTF-8 -/
  | notUtf8
  | worded (text : String)
  deriving DecidableEq, Repr

/-- The cause in words, with its number where the system has one. -/
def IoCause.text : IoCause → String
  | .notFound => "No such file or directory (os error 2)"
  | .busy => "Device or resource busy (os error 16)"
  | .notDirectory => "Not a directory (os error 20)"
  | .isDirectory => "Is a directory (os error 21)"
  | .invalidArgument => "Invalid argument (os error 22)"
  | .nameTooLong => "File name too long (os error 36)"
  | .sizeTooLarge => "number too large to fit in target type"
  | .nulInPath => "file name contained an unexpected NUL byte"
  | .notUtf8 => "stream did not contain valid UTF-8"
  | .worded text => text

/-- What was being done to a file or store. -/
inductive IoTask where
  | openDatabase (path : String)
  | read (path : String)
  | append (path : String)
  | sync (path : String)
  | truncate (path : String) (size : Nat)
  | replace (path : String)
  | worded (text : String)
  deriving DecidableEq, Repr

def IoTask.text : IoTask → String
  | .openDatabase path => "Failed to open database file: " ++ path
  | .read path => "Failed to read file: " ++ path
  | .append path => "Failed to append to file: " ++ path
  | .sync path => "Failed to sync: " ++ path
  | .truncate path size => "Failed to truncate " ++ path ++ " to " ++ toString size ++ " bytes"
  | .replace path => "Failed to write file: " ++ path
  | .worded text => text

/-- Which limit a checkpoint breaks. -/
inductive SizeFault where
  | blockLength (length : Nat)
  | blockCount (count : Nat)
  | worded (text : String)
  deriving DecidableEq, Repr

def SizeFault.text : SizeFault → String
  | .blockLength length => "block of " ++ toString length ++ " bytes exceeds the 4 GiB limit"
  | .blockCount count => toString count ++ " blocks exceed the per-checkpoint limit"
  | .worded text => text

/-- Why a file header is refused. -/
inductive HeaderFault where
  | tooShort (size : Nat)
  | magic
  | checksum (stored : UInt32)
  | version (found : Nat)
  | pageSize (found : Nat)
  | shorterThanPage (size pageSize : Nat)
  | worded (text : String)
  deriving DecidableEq, Repr

def HeaderFault.text : HeaderFault → String
  | .tooShort size => "file is " ++ toString size ++ " bytes, too short for a header"
  | .magic => "header magic mismatch: not a keeldb file or header damaged"
  | .checksum stored => "header checksum mismatch: stored " ++ Hex.word stored
  | .version found => "unsupported format version " ++ toString found
  | .pageSize found => "invalid page size " ++ toString found
  | .shorterThanPage size page =>
    "file is " ++ toString size ++ " bytes, shorter than the " ++ toString page ++ "-byte header page"
  | .worded text => text

/-- Why a trailer, a block or a chain of trailers is refused. -/
inductive CheckpointFault where
  | trailerOutside
  | trailerUnaligned
  | trailerMagic
  | trailerChecksum (stored : UInt32)
  | trailerSize (recorded stop : Nat)
  | blocksStart (found : Nat)
  | previousTrailer (found : Nat)
  | blockCutOff
  | blockLength (found : Nat)
  | blockChecksum (stored : UInt32)
  | blockKind
  | keyLength
  | valueLength
  | tombstoneValue
  | chainOrder
  | worded (text : String)
  deriving DecidableEq, Repr

def CheckpointFault.text : CheckpointFault → String
  | .trailerOutside => "trailer position outside the file"
  | .trailerUnaligned => "trailer does not end on a page boundary"
  | .trailerMagic => "trailer magic mismatch"
  | .trailerChecksum stored => "trailer checksum mismatch: stored " ++ Hex.word stored
  | .trailerSize recorded stop =>
    "trailer records size " ++ toString recorded ++ " but ends at " ++ toString stop
  | .blocksStart found => "blocks start " ++ toString found ++ " out of range"
  | .previousTrailer found => "previous trailer offset " ++ toString found ++ " out of range"
  | .blockCutOff => "block header runs past the checkpoint"
  | .blockLength found => "invalid block length " ++ toString found
  | .blockChecksum stored => "block checksum mismatch: stored " ++ Hex.word stored
  | .blockKind => "unknown block kind"
  | .keyLength => "key length overruns block"
  | .valueLength => "value length does not match block length"
  | .tombstoneValue => "tombstone block carries a value"
  | .chainOrder => "trailer chain does not move backward"
  | .worded text => text

/-- A failure to read or write a database file. -/
inductive StorageError where
  | io (task : IoTask) (cause : IoCause)
  /-- A change or a checkpoint exceeds the limits of the format -/
  | tooLarge (fault : SizeFault)
  /-- The header is missing, cut off or damaged -/
  | header (fault : HeaderFault)
  /-- A trailer or block failed validation at this offset -/
  | checkpoint (offset : Nat) (fault : CheckpointFault)
  /-- There are bytes past the header but no trailer validates -/
  | noValidCheckpoint (fileSize : Nat)
  deriving DecidableEq, Repr

namespace StorageError

def code : StorageError → String
  | .io .. => "KEEL_STORAGE_IO_ERROR"
  | .tooLarge _ => "KEEL_BLOCK_TOO_LARGE"
  | .header _ => "KEEL_HEADER_CORRUPTION"
  | .checkpoint .. => "KEEL_CHECKPOINT_CORRUPTION"
  | .noValidCheckpoint _ => "KEEL_NO_VALID_CHECKPOINT"

def severity : StorageError → Severity
  | .io .. | .tooLarge _ => .error
  | .header _ | .checkpoint .. | .noValidCheckpoint _ => .fatal

def message : StorageError → String
  | .io task _ => task.text
  | .tooLarge fault => fault.text
  | .header fault => fault.text
  | .checkpoint _ fault => fault.text
  | .noValidCheckpoint _ => "no structurally valid checkpoint found after the header"

def place : StorageError → Option String
  | .checkpoint offset _ => some ("byte_offset: " ++ toString offset)
  | .noValidCheckpoint fileSize => some ("file_len: " ++ toString fileSize)
  | _ => none

def cause : StorageError → Option IoCause
  | .io _ cause => some cause
  | _ => none

/-- Severity, code and message, then place and cause in parentheses where there are any. -/
def text (error : StorageError) : String :=
  "[" ++ error.severity.text ++ "] " ++ error.code ++ ": " ++ error.message
    ++ (error.place.map fun place => " (" ++ place ++ ")").getD ""
    ++ (error.cause.map fun cause => " (caused by: " ++ cause.text ++ ")").getD ""

end StorageError
end CheckpointStore
