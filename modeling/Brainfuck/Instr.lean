/-!
The eight instructions, the bytes that stand for them and the brackets that two of them are.
Every byte that stands for none of the eight is a comment.
-/

namespace Brainfuck

/-- An instruction. -/
inductive Instr where
  /-- `>`: the next cell to the right. -/
  | right
  /-- `<`: the next cell to the left. -/
  | left
  /-- `+`: one more in the current cell. -/
  | increment
  /-- `-`: one less in the current cell. -/
  | decrement
  /-- `.`: the current cell is written out. -/
  | output
  /-- `,`: a byte is read into the current cell. -/
  | input
  /-- `[`: the start of a loop. -/
  | loopStart
  /-- `]`: the end of a loop. -/
  | loopEnd
  deriving DecidableEq, Repr, Inhabited

namespace Instr

/-- The character that is written for an instruction. -/
def toChar : Instr → Char
  | right => '>'
  | left => '<'
  | increment => '+'
  | decrement => '-'
  | output => '.'
  | input => ','
  | loopStart => '['
  | loopEnd => ']'

/-- The byte that stands for an instruction. -/
def toByte : Instr → UInt8
  | right => 0x3e
  | left => 0x3c
  | increment => 0x2b
  | decrement => 0x2d
  | output => 0x2e
  | input => 0x2c
  | loopStart => 0x5b
  | loopEnd => 0x5d

/-- The instruction that a byte stands for; a comment byte stands for none. -/
def ofByte? (b : UInt8) : Option Instr :=
  match b with
  | 0x3e => some right
  | 0x3c => some left
  | 0x2b => some increment
  | 0x2d => some decrement
  | 0x2e => some output
  | 0x2c => some input
  | 0x5b => some loopStart
  | 0x5d => some loopEnd
  | _ => none

@[simp] theorem ofByte?_toByte (i : Instr) : ofByte? i.toByte = some i := by
  cases i <;> rfl

theorem eq_toByte_of_ofByte? {b : UInt8} {i : Instr} (h : ofByte? b = some i) : b = i.toByte := by
  unfold ofByte? at h
  split at h <;> first | (cases h; rfl) | cases h

theorem ofByte?_eq_some_iff {b : UInt8} {i : Instr} : ofByte? b = some i ↔ b = i.toByte :=
  ⟨eq_toByte_of_ofByte?, fun h => h ▸ ofByte?_toByte i⟩

end Instr

/-- A bracket of the program text. -/
inductive Bracket where
  | opening
  | closing
  deriving DecidableEq, Repr

/-- The bracket as messages show it. -/
def Bracket.text : Bracket → String
  | .opening => "'['"
  | .closing => "']'"

end Brainfuck
