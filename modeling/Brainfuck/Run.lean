import Brainfuck.Console
import Brainfuck.Event
import Brainfuck.Machine

/-!
Runs: a machine with its channels, brought forward one instruction at a time until it ends.

A run that has ended leaves its machine to the next run, which begins with the instruction at
which the last one stopped. While a run is traced, every executed instruction is logged with the
cell that it leaves; a tape without cells has none, and the run is abandoned there.
-/

namespace Brainfuck

/-- How a run ends. -/
inductive Outcome where
  /-- The end of the program was reached. -/
  | done
  /-- An instruction failed, or loops were left open. -/
  | failed (failure : Failure)
  /-- A cell was needed that the tape does not have. -/
  | crashed
  deriving DecidableEq, Repr, Inhabited

/-- A run under way. -/
structure Run where
  machine : Machine
  console : Console
  /-- Whether executed instructions are logged. -/
  traced : Bool
  /-- The number of instructions executed in this run. It stands for a word of 64 bits, which is the same
  below 2^64. -/
  steps : Nat
  /-- What the run has logged, oldest first. -/
  log : Array Event
  deriving Inhabited

/-- A run after some instructions: still under way, or ended. -/
inductive Progress where
  | running (run : Run)
  | ended (run : Run) (outcome : Outcome)

namespace Run

/-- A run of a machine from where it stands. -/
def start (machine : Machine) (console : Console) (traced : Bool) : Run :=
  { machine, console, traced, steps := 0,
    log := #[.started machine.program.size machine.tape.length] }

/-- The run after an instruction that was at `ip` and that left `machine`, which has still to go
one position further on. -/
def record (machine : Machine) (console : Console) (traced : Bool) (steps : Nat)
    (log : Array Event) (ip : Nat) (instr : Instr) : Progress :=
  if traced then
    match machine.tape.get? with
    | some cell =>
      let log := log.push (.executed steps ip machine.tape.pointer cell instr)
      .running ⟨machine.forward, console, traced, steps + 1, log⟩
    | none => .ended ⟨machine, console, traced, steps, log⟩ .crashed
  else
    .running ⟨machine.forward, console, traced, steps + 1, log⟩

/-- The run after its next instruction. -/
def advance : Run → Progress
  | ⟨machine, console, traced, steps, log⟩ =>
    let ip := machine.ip
    match machine.next with
    | .halt => .ended ⟨machine, console, traced, steps, log.push (.finished steps)⟩ .done
    | .fail failure => .ended ⟨machine, console, traced, steps, log⟩ (.failed failure)
    | .crash => .ended ⟨machine, console, traced, steps, log⟩ .crashed
    | .pass => .running ⟨machine.forward, console, traced, steps, log⟩
    | .emit b =>
      match console.put b with
      | (.ok (), console) => record machine console traced steps log ip .output
      | (.error fault, console) =>
        .ended ⟨machine, console, traced, steps, log⟩ (.failed (.io ip fault))
    | .accept =>
      match console.take with
      | (.ok none, console) => record machine console traced steps log ip .input
      | (.ok (some b), console) =>
        if machine.tape.get?.isSome then
          record (machine.store b) console traced steps log ip .input
        else
          .ended ⟨machine, console, traced, steps, log⟩ .crashed
      | (.error fault, console) =>
        .ended ⟨machine, console, traced, steps, log⟩ (.failed (.io ip fault))
    | .right => record (machine.perform .right) console traced steps log ip .right
    | .left => record (machine.perform .left) console traced steps log ip .left
    | .increment => record (machine.perform .increment) console traced steps log ip .increment
    | .decrement => record (machine.perform .decrement) console traced steps log ip .decrement
    | .enter => record (machine.perform .enter) console traced steps log ip .loopStart
    | .skip j => record (machine.perform (.skip j)) console traced steps log ip .loopStart
    | .again i => record (machine.perform (.again i)) console traced steps log ip .loopEnd
    | .leave => record (machine.perform .leave) console traced steps log ip .loopEnd

/-- The run after at most `fuel` instructions. -/
def iterate : Nat → Run → Progress
  | 0, r => .running r
  | fuel + 1, r =>
    match r.advance with
    | .running r => iterate fuel r
    | .ended r o => .ended r o

end Run

end Brainfuck
