import Brainfuck.Fault
import Brainfuck.Instr
import Brainfuck.Tape

/-!
The ways in which a run fails, the text of each and the position that it points at.
-/

namespace Brainfuck

/-- A reason to give up a run. -/
inductive Failure where
  /-- The instruction at `ip` would move the pointer off the tape. -/
  | outOfBounds (ip pointer : Nat) (bound : Bound)
  /-- The bracket at `ip` has no partner. -/
  | unmatched (ip : Nat) (bracket : Bracket)
  /-- The program ended with loops still open. -/
  | unterminated (loops : Nat)
  /-- The loop at `ip` is one more than may be open at once. -/
  | stackOverflow (ip capacity : Nat)
  /-- The instruction at `ip` could not read or write. -/
  | io (ip : Nat) (fault : Fault)
  deriving DecidableEq, Repr

namespace Failure

/-- The text of a failure. -/
def message : Failure → String
  | outOfBounds ip pointer bound =>
    s!"Memory pointer out of bounds ({bound.text}) at position {ip} (ptr={pointer})"
  | unmatched ip bracket => s!"Unmatched {bracket.text} at position {ip}"
  | unterminated loops => s!"Unmatched '[' - {loops} loops left open"
  | stackOverflow ip capacity => s!"Loop stack overflow at position {ip} (depth {capacity})"
  | io ip fault => s!"I/O error at position {ip}: {fault.text}"

/-- The position that a failure points at; the end of the program is none. -/
def position? : Failure → Option Nat
  | outOfBounds ip _ _ => some ip
  | unmatched ip _ => some ip
  | unterminated _ => none
  | stackOverflow ip _ => some ip
  | io ip _ => some ip

end Failure

end Brainfuck
