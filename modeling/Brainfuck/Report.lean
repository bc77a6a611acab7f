import Brainfuck.Failure
import Brainfuck.Program

/-!
The report of a failure: its message and, where it points at a position, the program text around
that position with a caret below.
-/

namespace Brainfuck.Report

/-- The number of bytes that are shown on either side of the position. -/
def radius : Nat := 32

/-- The first position that is shown. -/
def windowStart (pos : Nat) : Nat := pos - radius

/-- The position after the last that is shown, in a text of the given length. -/
def windowEnd (pos length : Nat) : Nat := min (pos + radius + 1) length

/-- A byte as the report shows it: printable ASCII as it is, all else as a dot. -/
def shown (b : UInt8) : Char := if 0x20 ≤ b ∧ b ≤ 0x7e then Char.ofNat b.toNat else '.'

/-- The part of the text around a position. -/
def excerpt (code : Program) (pos : Nat) : List UInt8 :=
  (code.bytes.extract (windowStart pos) (windowEnd pos code.size)).toList

/-- The line of the text around a position. -/
def contextLine (code : Program) (pos : Nat) : String :=
  "  " ++ String.ofList ((excerpt code pos).map shown)

/-- The line with the caret, which stands below the byte at the position. -/
def caretLine (pos : Nat) : String :=
  "  " ++ String.ofList (List.replicate (pos - windowStart pos) ' ') ++ "^"

/-- The lines below a message: none where the window is empty. -/
def contextLines (code : Program) (pos : Nat) : List String :=
  if windowStart pos < windowEnd pos code.size then [contextLine code pos, caretLine pos] else []

/-- A message with the text around a position. -/
def withContext (message : String) (code : Program) (pos : Nat) : List String :=
  message :: contextLines code pos

/-- The first line of the report of a failure. -/
def headline (name : Option String) (failure : Failure) : String :=
  match name with
  | some name => s!"{name}: Error: {failure.message}"
  | none => s!"Error: {failure.message}"

/-- The report of a failure of a program, under the name of the tool if there is one. -/
def ofFailure (name : Option String) (code : Program) (failure : Failure) : List String :=
  match failure.position? with
  | some pos => withContext (headline name failure) code pos
  | none => [headline name failure]

/-- Lines as text: each is ended. -/
def text (lines : List String) : String := String.join (lines.map (· ++ "\n"))

end Brainfuck.Report
