/-!
# Recoverable errors

An error leaves its buffer usable, or says why there is none. Each has one
cause, and `StorageError.message` is the only place that puts it into words.
-/

namespace RecordBuffer

/-- What stood in the way of an access to a file, a mapping or a stream. -/
inductive Cause where
  | noSuchFile
  | notDirectory
  | isDirectory
  | nameTooLong
  | nulInName
  /-- A file length above `Limits.maxExtent`. -/
  | lengthTooLarge
  /-- A mapping longer than `Limits.maxExtent`. -/
  | mappingTooLarge
  /-- A mapping that the machine has no room for. -/
  | outOfMemory
  /-- A new file in the place of another one. -/
  | nameTaken
  /-- A record that the buffer can never hold. -/
  | recordDoesNotFit (length max : Nat)
  /-- A stream that broke off with a text of its own. -/
  | stream (text : String)
  deriving DecidableEq, Repr, Inhabited

/-- The text that reports a cause. -/
def Cause.message : Cause → String
  | noSuchFile => "No such file or directory (os error 2)"
  | outOfMemory => "Cannot allocate memory (os error 12)"
  | nameTaken => "File exists (os error 17)"
  | notDirectory => "Not a directory (os error 20)"
  | isDirectory => "Is a directory (os error 21)"
  | nameTooLong => "File name too long (os error 36)"
  | nulInName => "file name contained an unexpected NUL byte"
  | lengthTooLarge => "number too large to fit in target type"
  | mappingTooLarge => "memory map length overflows isize"
  | recordDoesNotFit length max =>
      s!"record of {length} bytes does not fit: buffer max size is {max}"
  | stream text => text

/-- How a file is known: by a path that was spelled out, or by the path of a temporary file, which
stands for its number. Nobody can spell that one, but the buffer of the file hands it out. -/
inductive FileName where
  | path (text : String)
  | temporary (number : Nat)
  deriving DecidableEq, Repr, Inhabited

instance : Coe String FileName := ⟨.path⟩

/-- The name of a file as texts show it. The number of a temporary file is not shown. -/
def FileName.shown : FileName → String
  | path text => text
  | temporary _ => "<temp>"

/-- A positional access to the bytes of a buffer. -/
inductive Access where
  | write
  | writeRecord
  | read
  deriving DecidableEq, Repr, Inhabited

/-- The words for an access, as in "cannot read 3 bytes". -/
def Access.words : Access → String
  | write => "write"
  | writeRecord => "write record of"
  | read => "read"

/-- What makes a configuration unusable. -/
inductive ConfigFlaw where
  | initialSizeExceedsMax (size max : Nat)
  | fileNeedsMapping
  | startOffsetExceedsMax (offset max : Nat)
  | zeroChunkSize
  deriving DecidableEq, Repr, Inhabited

/-- The text that reports a flaw. -/
def ConfigFlaw.message : ConfigFlaw → String
  | initialSizeExceedsMax size max => s!"initial size {size} exceeds max size {max}"
  | fileNeedsMapping => "a backing file requires the mmap buffer kind"
  | startOffsetExceedsMax offset max => s!"start offset {offset} exceeds max size {max}"
  | zeroChunkSize => "chunk size must be positive"

/-- Why an operation on a buffer gave no result. -/
inductive StorageError where
  | io (cause : Cause)
  | create (file : FileName) (cause : Cause)
  | truncate (file : FileName) (size : Nat) (cause : Cause)
  | map (file : FileName) (size : Nat) (cause : Cause)
  | sizeExceeded (file : FileName) (size max : Nat)
  | outOfBounds (access : Access) (length offset capacity : Nat)
  | capacity (requested available : Nat)
  | remove (file : FileName) (cause : Cause)
  | invalidConfig (flaw : ConfigFlaw)
  deriving DecidableEq, Repr, Inhabited

namespace StorageError

/-- The text that reports an error. -/
def message : StorageError → String
  | io cause => s!"I/O error: {cause.message}"
  | create file cause => s!"while creating backing file {file.shown}: {cause.message}"
  | truncate file size cause => s!"while truncating {file.shown} to size: {size}: {cause.message}"
  | map file size cause => s!"while mmapping {file.shown} with size: {size}: {cause.message}"
  | sizeExceeded file size max =>
      s!"file size {size} of {file.shown} is already bigger than max size {max}"
  | outOfBounds access length offset held =>
      s!"cannot {access.words} {length} bytes at offset {offset}: region holds {held} bytes"
  | capacity requested available =>
      s!"not enough capacity in the buffer to return {requested} bytes (have {available})"
  | remove file cause => s!"while deleting file {file.shown}: {cause.message}"
  | invalidConfig flaw => s!"Invalid buffer configuration: {flaw.message}"

/-- The file that an error is about. -/
def file? : StorageError → Option FileName
  | create file _ | truncate file _ _ | map file _ _ | sizeExceeded file _ _
  | remove file _ => some file
  | _ => none

end StorageError

end RecordBuffer
