import Brainfuck.Fault

/-!
The channels of a run: what successive reads deliver, what becomes of successive writes and
flushes, what has been written, and how many calls were made.

An interrupted read or write is tried again at once; an interrupted flush is not. Past its end
each script goes on without faults: reads find the end of the input, writes and flushes succeed.
-/

namespace Brainfuck

/-- What one read call delivers. -/
inductive Delivery where
  | byte (b : UInt8)
  | fault (f : Fault)
  /-- The end of the input, for this call. -/
  | eof
  deriving DecidableEq, Repr

/-- What becomes of one write call. -/
inductive WriteFate where
  | accept
  | fault (f : Fault)
  /-- The call succeeds and takes no byte. -/
  | nothing
  deriving DecidableEq, Repr

/-- What becomes of one flush call. -/
inductive FlushFate where
  | accept
  | fault (f : Fault)
  deriving DecidableEq, Repr

/-- The channels: the scripts of what is to come and the record of what has been. -/
structure Console where
  input : List Delivery
  writeFates : List WriteFate
  flushFates : List FlushFate
  /-- The bytes accepted so far. -/
  output : ByteArray
  /-- The number of read calls. -/
  reads : Nat
  /-- The number of write calls. -/
  writes : Nat
  /-- The number of flush calls. -/
  flushes : Nat
  deriving Inhabited

namespace Console

/-- Fresh channels with the given scripts. -/
def ofScripts (input : List Delivery) (writes : List WriteFate) (flushes : List FlushFate) :
    Console :=
  ⟨input, writes, flushes, ByteArray.empty, 0, 0, 0⟩

/-- One byte of input, or `none` at its end, after as many calls as interruptions make needed. -/
def take : Console → Except Fault (Option UInt8) × Console
  | ⟨input, writeFates, flushFates, output, reads, writes, flushes⟩ =>
    let (answer, input, reads) := go input reads
    (answer, ⟨input, writeFates, flushFates, output, reads, writes, flushes⟩)
where
  /-- The answer, the deliveries that are left and the number of calls. -/
  go : List Delivery → Nat → Except Fault (Option UInt8) × List Delivery × Nat
    | [], n => (.ok none, [], n + 1)
    | .byte b :: rest, n => (.ok (some b), rest, n + 1)
    | .eof :: rest, n => (.ok none, rest, n + 1)
    | .fault f :: rest, n =>
      if f.isInterruption then go rest (n + 1) else (.error f, rest, n + 1)

/-- What a write comes to, the fates that are left and the number of calls. -/
def settleWrite : List WriteFate → Nat → Except Fault Unit × List WriteFate × Nat
  | [], n => (.ok (), [], n + 1)
  | .accept :: rest, n => (.ok (), rest, n + 1)
  | .nothing :: rest, n => (.error .nothingWritten, rest, n + 1)
  | .fault f :: rest, n =>
    if f.isInterruption then settleWrite rest (n + 1) else (.error f, rest, n + 1)

/-- What a flush comes to and the fates that are left. -/
def settleFlush : List FlushFate → Except Fault Unit × List FlushFate
  | [] => (.ok (), [])
  | .accept :: rest => (.ok (), rest)
  | .fault f :: rest => (.error f, rest)

/-- Writes one byte and flushes it. A byte that was accepted stays accepted when its flush
fails. -/
def put (b : UInt8) : Console → Except Fault Unit × Console
  | ⟨input, writeFates, flushFates, output, reads, writes, flushes⟩ =>
    match settleWrite writeFates writes with
    | (.error f, writeFates, writes) =>
      (.error f, ⟨input, writeFates, flushFates, output, reads, writes, flushes⟩)
    | (.ok (), writeFates, writes) =>
      let (answer, flushFates) := settleFlush flushFates
      (answer, ⟨input, writeFates, flushFates, output.push b, reads, writes, flushes + 1⟩)

end Console

end Brainfuck
