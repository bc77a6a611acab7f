import Brainfuck.Event
import Brainfuck.Files.Basic
import Brainfuck.Program

/-!
Loading a program from a file: the file is opened, a buffer of its size is set aside in the memory, and
the file is read into it.
-/

namespace Brainfuck

/-- A reason why a program cannot be loaded. -/
inductive LoadError where
  /-- The file cannot be opened or read. -/
  | unreadable (path : Path) (fault : Fault)
  /-- The memory has no room for a file of that size. -/
  | outOfMemory (path : Path) (size : Nat)
  deriving DecidableEq, Repr

/-- The text of an error. -/
def LoadError.message : LoadError → String
  | .unreadable path fault => s!"Cannot open file '{path.text}': {fault.text}"
  | .outOfMemory path size =>
    s!"Memory allocation failed while reading '{path.text}' ({size} bytes)"

/-- The memory, of which buffers are set aside. -/
structure Memory where
  /-- Whether a buffer of the given size is granted. -/
  grants : Nat → Bool
  deriving Inhabited

namespace Memory

/-- The size that no buffer exceeds, be the memory as large as it may: 2^63 - 1. -/
def maxBuffer : Nat := 0x7fffffffffffffff

/-- Whether there is a buffer of the given size. -/
def hasRoom (m : Memory) (size : Nat) : Bool := size ≤ maxBuffer && m.grants size

theorem hasRoom_iff {m : Memory} {size : Nat} :
    m.hasRoom size ↔ size ≤ maxBuffer ∧ m.grants size := by
  simp [hasRoom]

/-- A memory that grants every buffer. -/
def ample : Memory := ⟨fun _ => true⟩

end Memory

/-- The program in a file, and what is logged about it. -/
def Program.load (files : Files) (path : Path) (sizes : Sizes := files.sizes)
    (memory : Memory := .ample) : Except LoadError (Program × List Event) :=
  match sizes path with
  | .error fault => .error (.unreadable path fault)
  | .ok size =>
    if memory.hasRoom size then
      match files path with
      | .error fault => .error (.unreadable path fault)
      | .ok content => .ok (.ofBytes content, [.programLoaded path.text content.size])
    else .error (.outOfMemory path size)

end Brainfuck
