/-!
The loops that are open: the positions of their `[`, the innermost last, and no more of them than
a fixed number.
-/

namespace Brainfuck

/-- A stack of at most `capacity` positions, its top last. -/
structure LoopStack where
  entries : Array Nat
  capacity : Nat
  deriving DecidableEq, Repr, Inhabited

namespace LoopStack

/-- The empty stack with room for `capacity` positions. -/
def withCapacity (capacity : Nat) : LoopStack := ⟨#[], capacity⟩

/-- The number of positions on the stack. -/
def depth (s : LoopStack) : Nat := s.entries.size

/-- Whether no loop is open. -/
def isEmpty (s : LoopStack) : Bool := s.entries.isEmpty

/-- The innermost open loop. -/
def top? (s : LoopStack) : Option Nat := s.entries.back?

/-- Whether there is no room for one more position. -/
def isFull (s : LoopStack) : Bool := s.capacity ≤ s.depth

/-- The stack with one more position on it. -/
def add (s : LoopStack) (ip : Nat) : LoopStack := { s with entries := s.entries.push ip }

/-- The stack without its top. -/
def drop (s : LoopStack) : LoopStack := { s with entries := s.entries.pop }

/-- One more position, unless the stack is full; then the error is its capacity. -/
def push (s : LoopStack) (ip : Nat) : Except Nat LoopStack :=
  if s.isFull then .error s.capacity else .ok (s.add ip)

/-- The top, if there is one, and the stack without it. -/
def pop (s : LoopStack) : Option Nat × LoopStack := (s.top?, s.drop)

/-- The positions as a list, the innermost last. -/
def toList (s : LoopStack) : List Nat := s.entries.toList

theorem length_toList (s : LoopStack) : s.toList.length = s.depth := rfl

theorem toList_withCapacity (capacity : Nat) : (withCapacity capacity).toList = [] := rfl

theorem toList_add (s : LoopStack) (ip : Nat) : (s.add ip).toList = s.toList ++ [ip] :=
  Array.toList_push

theorem toList_drop (s : LoopStack) : s.drop.toList = s.toList.dropLast := Array.toList_pop

theorem top?_eq (s : LoopStack) : s.top? = s.toList.getLast? := by
  simp [top?, toList]

end LoopStack

end Brainfuck
