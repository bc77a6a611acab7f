import Brainfuck.Instr
import Brainfuck.Limits

/-!
The events that are logged: what each tells, how important it is and where it comes from.
-/

namespace Brainfuck

/-- How important an event is, the most important first. -/
inductive Level where
  | error
  | warn
  | info
  | debug
  | trace
  deriving DecidableEq, Repr

namespace Level

/-- The rank of a level; a larger one is less important. -/
def rank : Level → Nat
  | error => 1
  | warn => 2
  | info => 3
  | debug => 4
  | trace => 5

/-- The name that begins a log line. -/
def name : Level → String
  | error => "ERROR"
  | warn => "WARN"
  | info => "INFO"
  | debug => "DEBUG"
  | trace => "TRACE"

end Level

/-- Something that is logged. -/
inductive Event where
  /-- A program was read from a file. -/
  | programLoaded (path : String) (bytes : Nat)
  /-- A configuration file was read. -/
  | limitsLoaded (path : String) (limits : Limits)
  /-- The limits of the run are settled, for a program of the given length. -/
  | limitsResolved (limits : Limits) (length : Nat)
  /-- A run begins. -/
  | started (length tape : Nat)
  /-- The instruction at `ip` was executed: `pointer` and `cell` are what it left. The step stands for a
  word of 64 bits, which is the same below 2^64. -/
  | executed (step ip pointer : Nat) (cell : UInt8) (instr : Instr)
  /-- A run reached the end of its program. -/
  | finished (steps : Nat)
  deriving DecidableEq, Repr

namespace Event

/-- The level of an event. -/
def level : Event → Level
  | executed .. => .trace
  | _ => .debug

/-- The part of the program that reports an event. -/
def target : Event → String
  | programLoaded .. => "brainfuk::source"
  | limitsLoaded .. => "brainfuk::config"
  | limitsResolved .. => "bf"
  | started .. => "brainfuk::engine"
  | executed .. => "brainfuk::engine"
  | finished .. => "brainfuk::engine"

/-- The names of the values that an event carries. -/
def fields : Event → List String
  | programLoaded .. => ["message", "path", "bytes"]
  | limitsLoaded .. => ["message", "path", "config"]
  | limitsResolved .. => ["message", "config", "len"]
  | started .. => ["message", "len", "tape"]
  | executed .. => ["message", "step", "ip", "ptr", "cell", "instr"]
  | finished .. => ["message", "steps"]

/-- What an event tells. -/
def message : Event → String
  | programLoaded path bytes => s!"loaded program path={path} bytes={bytes}"
  | limitsLoaded path limits => s!"loaded config file path={path} config={limits.text}"
  | limitsResolved limits length => s!"resolved configuration config={limits.text} len={length}"
  | started length tape => s!"starting run len={length} tape={tape}"
  | executed step ip pointer cell instr =>
    s!"executed step={step} ip={ip} ptr={pointer} cell={cell.toNat} instr={instr.toChar}"
  | finished steps => s!"run finished steps={steps}"

/-- The log line of an event. -/
def line (e : Event) : String := s!"{e.level.name} {e.message}"

end Event

end Brainfuck
