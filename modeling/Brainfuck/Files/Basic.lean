import Brainfuck.Fault
import Brainfuck.Files.Path

/-!
Access to files: what reading the file at a path gives, and what the system tells of it before.
-/

namespace Brainfuck

/-- A file system, as far as it is read: the content at each path, or the fault that reading it
meets. -/
abbrev Files := Path → Except Fault ByteArray

/-- The sizes of the files that can be opened, as the system tells them before anything is read, or the
fault that opening meets. -/
abbrev Sizes := Path → Except Fault Nat

/-- The sizes of files of which each can be read that can be opened. -/
def Files.sizes (files : Files) : Sizes := fun path => (files path).map ByteArray.size

end Brainfuck
