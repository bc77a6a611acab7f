import Brainfuck.Failure
import Brainfuck.Limits
import Brainfuck.LoopStack
import Brainfuck.Program

/-!
The machine: a program, a tape, the loops that are open and the position of the next instruction.

What the machine does next is decided first, from the state alone (`Machine.next`), and then done
(`Machine.perform`). A machine that refuses an instruction is therefore left as it was.
-/

namespace Brainfuck

/-- What a machine does next. -/
inductive Action where
  /-- The program is at its end and no loop is open. -/
  | halt
  /-- A comment is passed over. -/
  | pass
  /-- The pointer moves right. -/
  | right
  /-- The pointer moves left. -/
  | left
  /-- The current cell counts up. -/
  | increment
  /-- The current cell counts down. -/
  | decrement
  /-- The byte of the current cell is written. -/
  | emit (b : UInt8)
  /-- A byte is read. -/
  | accept
  /-- A loop is entered. -/
  | enter
  /-- A loop is passed over, to its `]` at the given position. -/
  | skip (target : Nat)
  /-- A loop is repeated from its `[` at the given position. -/
  | again (target : Nat)
  /-- A loop is left. -/
  | leave
  /-- The run fails. -/
  | fail (failure : Failure)
  /-- A cell is needed that the tape does not have. -/
  | crash
  deriving DecidableEq, Repr

/-- The state of a machine. -/
structure Machine where
  program : Program
  tape : Tape
  loops : LoopStack
  /-- The position of the next instruction. -/
  ip : Nat
  deriving Inhabited

namespace Machine

/-- A machine at the start of a program. -/
def new (program : Program) (limits : Limits) : Machine :=
  ⟨program, .blank limits.tapeSize, .withCapacity limits.stackDepth, 0⟩

/-- What an instruction at `ip` comes to. -/
def actionOf (m : Machine) : Instr → Action
  | .right =>
    match m.tape.rightBound? with
    | some bound => .fail (.outOfBounds m.ip m.tape.pointer bound)
    | none => .right
  | .left =>
    match m.tape.leftBound? with
    | some bound => .fail (.outOfBounds m.ip m.tape.pointer bound)
    | none => .left
  | .increment => if m.tape.get?.isSome then .increment else .crash
  | .decrement => if m.tape.get?.isSome then .decrement else .crash
  | .output =>
    match m.tape.get? with
    | some b => .emit b
    | none => .crash
  | .input => .accept
  | .loopStart =>
    match m.tape.get? with
    | none => .crash
    | some b =>
      if b = 0 then
        match m.program.loopEnd? m.ip with
        | some j => .skip j
        | none => .fail (.unmatched m.ip .opening)
      else if m.loops.isFull then .fail (.stackOverflow m.ip m.loops.capacity)
      else .enter
  | .loopEnd =>
    match m.loops.top? with
    | none => .fail (.unmatched m.ip .closing)
    | some i =>
      match m.tape.get? with
      | none => .crash
      | some b => if b = 0 then .leave else .again i

/-- What the machine does next. -/
def next (m : Machine) : Action :=
  if h : m.ip < m.program.bytes.size then
    match Instr.ofByte? m.program.bytes[m.ip] with
    | some i => m.actionOf i
    | none => .pass
  else if m.loops.isEmpty then .halt
  else .fail (.unterminated m.loops.depth)

/-- The machine one position further on. -/
def forward (m : Machine) : Machine := { m with ip := m.ip + 1 }

/-- What an action does to the machine, before it goes one position further on. -/
def perform (m : Machine) (a : Action) : Machine :=
  match m with
  | ⟨program, tape, loops, ip⟩ =>
    match a with
    | .right => ⟨program, tape.right, loops, ip⟩
    | .left => ⟨program, tape.left, loops, ip⟩
    | .increment => ⟨program, tape.increment, loops, ip⟩
    | .decrement => ⟨program, tape.decrement, loops, ip⟩
    | .enter => ⟨program, tape, loops.add ip, ip⟩
    | .skip target => ⟨program, tape, loops, target⟩
    | .again target => ⟨program, tape, loops, target⟩
    | .leave => ⟨program, tape, loops.drop, ip⟩
    | .halt | .pass | .emit _ | .accept | .fail _ | .crash => ⟨program, tape, loops, ip⟩

/-- The machine with a byte that was read in its current cell. -/
def store (m : Machine) (b : UInt8) : Machine :=
  match m with
  | ⟨program, tape, loops, ip⟩ => ⟨program, tape.set b, loops, ip⟩

end Machine

end Brainfuck
