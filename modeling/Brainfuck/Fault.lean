/-!
What can go wrong outside the program: a read, a write, a flush or the opening of a file fails
for a cause, with or without words of its own.
-/

namespace Brainfuck

/-- The cause of a failed operation on a channel or a file. -/
inductive Cause where
  | interrupted
  | permissionDenied
  | brokenPipe
  | wouldBlock
  | timedOut
  | unexpectedEof
  | notFound
  | invalidInput
  | invalidData
  | connectionReset
  | writeZero
  | storageFull
  | outOfMemory
  | unsupported
  | notADirectory
  | isADirectory
  | tooManyLinks
  | nameTooLong
  | other
  deriving DecidableEq, Repr, Inhabited

/-- The words for a cause that has none of its own. -/
def Cause.text : Cause → String
  | .interrupted => "operation interrupted"
  | .permissionDenied => "permission denied"
  | .brokenPipe => "broken pipe"
  | .wouldBlock => "operation would block"
  | .timedOut => "timed out"
  | .unexpectedEof => "unexpected end of file"
  | .notFound => "entity not found"
  | .invalidInput => "invalid input parameter"
  | .invalidData => "invalid data"
  | .connectionReset => "connection reset"
  | .writeZero => "write zero"
  | .storageFull => "no storage space"
  | .outOfMemory => "out of memory"
  | .unsupported => "unsupported"
  | .notADirectory => "not a directory"
  | .isADirectory => "is a directory"
  | .tooManyLinks => "filesystem loop or indirection limit (e.g. symlink loop)"
  | .nameTooLong => "invalid filename"
  | .other => "other error"

/-- A failed operation. -/
structure Fault where
  cause : Cause
  /-- Words that replace those of the cause. -/
  words : Option String := none
  deriving DecidableEq, Repr, Inhabited

namespace Fault

/-- The text of a fault: its own words if it has any, be they empty. -/
def text (f : Fault) : String := f.words.getD f.cause.text

/-- Whether the operation was only interrupted and is to be tried again. -/
def isInterruption (f : Fault) : Bool := f.cause = .interrupted

/-- A write that took no byte: no progress is possible. -/
def nothingWritten : Fault := ⟨.writeZero, some "failed to write whole buffer"⟩

/-! ### What the system reports -/

/-- No file has that name. -/
def noSuchFile : Fault := ⟨.notFound, some "No such file or directory (os error 2)"⟩

/-- A file stands where a directory is needed. -/
def notADirectory : Fault := ⟨.notADirectory, some "Not a directory (os error 20)"⟩

/-- A directory stands where a file is needed. -/
def isADirectory : Fault := ⟨.isADirectory, some "Is a directory (os error 21)"⟩

/-- Nobody reads what is written. -/
def brokenPipe : Fault := ⟨.brokenPipe, some "Broken pipe (os error 32)"⟩

/-- A name, or a path as a whole, is too long. -/
def nameTooLong : Fault := ⟨.nameTooLong, some "File name too long (os error 36)"⟩

/-- Links lead on to links without end. -/
def tooManyLinks : Fault := ⟨.tooManyLinks, some "Too many levels of symbolic links (os error 40)"⟩

/-- A path holds a byte that no name may hold. -/
def nulInPath : Fault := ⟨.invalidInput, some "file name contained an unexpected NUL byte"⟩

/-- A text is not in UTF-8. -/
def notUtf8 : Fault := ⟨.invalidData, some "stream did not contain valid UTF-8"⟩

end Fault

end Brainfuck
