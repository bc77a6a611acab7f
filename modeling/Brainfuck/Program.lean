import Brainfuck.Instr

/-!
A program: its text, byte by byte, and the search for the bracket that belongs to another one.

The search looks at the text only, from the neighbour of the start outwards, and counts the loops
that it has seen begin and not yet end.
-/

namespace Brainfuck

/-- The text of a program. Any byte may occur in it. -/
structure Program where
  bytes : Array UInt8
  deriving DecidableEq, Repr, Inhabited

/-- An access at an index that its array does not have. -/
structure OutOfRange where
  index : Nat
  length : Nat
  deriving DecidableEq, Repr

/-- The direction in which a bracket looks for its partner. -/
inductive Direction where
  /-- From a `[` towards its `]`. -/
  | forward
  /-- From a `]` towards its `[`. -/
  | backward
  deriving DecidableEq, Repr

namespace Program

/-- The program with the given text. -/
def ofBytes (text : ByteArray) : Program := ⟨text.data⟩

/-- The program with the given text. -/
def ofList (text : List UInt8) : Program := ⟨text.toArray⟩

/-- The text as a list. -/
def toList (p : Program) : List UInt8 := p.bytes.toList

/-- The length of the text. -/
def size (p : Program) : Nat := p.bytes.size

/-- Whether the text is empty. -/
def isEmpty (p : Program) : Bool := p.bytes.isEmpty

/-- The instruction at a position, if there is one. -/
def instr? (p : Program) (i : Nat) : Option Instr := p.bytes[i]?.bind Instr.ofByte?

/-- The first `]` from position `i` on that ends none of the loops that begin from there on, where
`inner` of these have begun before `i`. -/
def scanForward (p : Program) (inner i : Nat) : Option Nat :=
  if h : i < p.bytes.size then
    match Instr.ofByte? p.bytes[i] with
    | some .loopStart => scanForward p (inner + 1) (i + 1)
    | some .loopEnd =>
      match inner with
      | 0 => some i
      | inner + 1 => scanForward p inner (i + 1)
    | _ => scanForward p inner (i + 1)
  else
    none
termination_by p.bytes.size - i

/-- The last `[` before position `i` that begins none of the loops that end before there, where
`inner` of these end at or after `i`. -/
def scanBackward (p : Program) (inner : Nat) : Nat → Option Nat
  | 0 => none
  | i + 1 =>
    match p.instr? i with
    | some .loopEnd => scanBackward p (inner + 1) i
    | some .loopStart =>
      match inner with
      | 0 => some i
      | inner + 1 => scanBackward p inner i
    | _ => scanBackward p inner i

/-- The `]` that belongs to a `[` at position `i`. The byte at `i` itself is not looked at. -/
def loopEnd? (p : Program) (i : Nat) : Option Nat := p.scanForward 0 (i + 1)

/-- The `[` that belongs to a `]` at position `j`. The byte at `j` itself is not looked at. -/
def loopStart? (p : Program) (j : Nat) : Option Nat := p.scanBackward 0 j

/-- The partner of a bracket at `start`, from any number at all. Forward, the search from beyond
the text finds nothing; backward, it would begin at a byte that is not there. -/
def partner (p : Program) (start : Nat) : Direction → Except OutOfRange (Option Nat)
  | .forward => .ok (p.loopEnd? start)
  | .backward =>
    if start ≤ p.size then .ok (p.loopStart? start) else .error ⟨start - 1, p.size⟩

end Program

end Brainfuck
