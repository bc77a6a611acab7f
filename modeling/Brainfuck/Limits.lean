/-!
The limits of a machine: how many cells its tape has and how many loops may be open at once.
-/

namespace Brainfuck

/-- The limits of a machine. -/
structure Limits where
  tapeSize : Nat := 30000
  stackDepth : Nat := 1000
  deriving DecidableEq, Repr, Inhabited

/-- A limit that no machine may have. -/
inductive Violation where
  | tapeTooSmall
  | tapeTooLarge
  | stackTooSmall
  deriving DecidableEq, Repr

namespace Limits

/-- The largest tape that is allowed: 2^28 cells. -/
def maxTapeSize : Nat := 268435456

/-- The limits with those replaced that are given. -/
def override (l : Limits) (tapeSize stackDepth : Option Nat) : Limits :=
  ⟨tapeSize.getD l.tapeSize, stackDepth.getD l.stackDepth⟩

/-- The first bound that the limits violate, the tape's before the stack's. -/
def violation? (l : Limits) : Option Violation :=
  if l.tapeSize = 0 then some .tapeTooSmall
  else if l.tapeSize > maxTapeSize then some .tapeTooLarge
  else if l.stackDepth = 0 then some .stackTooSmall
  else none

/-- The limits as log lines show them. -/
def text (l : Limits) : String :=
  s!"Config \x7b tape_size: {l.tapeSize}, stack_depth: {l.stackDepth} \x7d"

end Limits

/-- The text of a violation. -/
def Violation.text : Violation → String
  | .tapeTooSmall => "tape_size must be at least 1"
  | .tapeTooLarge => s!"tape_size must be at most {Limits.maxTapeSize}"
  | .stackTooSmall => "stack_depth must be at least 1"

end Brainfuck
