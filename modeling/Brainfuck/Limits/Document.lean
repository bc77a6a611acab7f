import Brainfuck.Limits
import Brainfuck.Toml.Value

/-!
Limits in a document: the entry `interpreter`, which is a table with the names of the limits or
an array with the limits in order. What is not given keeps its default; everything outside that
entry is ignored.
-/

namespace Brainfuck

/-- What a place in a document is to hold. -/
inductive Expectation where
  | count
  | limits
  deriving DecidableEq, Repr

/-- The words for an expectation in a message. -/
def Expectation.text : Expectation → String
  | .count => "usize"
  | .limits => "struct Config"

/-- A reason why a document gives no limits. -/
inductive Misfit where
  /-- A value of the wrong type. -/
  | wrongType (found : Toml.Value) (expected : Expectation)
  /-- A count below zero. -/
  | negative (n : Int)
  /-- A key that names no limit. -/
  | unknownKey (key : String)

/-- The text of a misfit. -/
def Misfit.message : Misfit → String
  | .wrongType found expected => s!"invalid type: {found.describe}, expected {expected.text}"
  | .negative n => s!"invalid value: integer `{n}`, expected {Expectation.count.text}"
  | .unknownKey key => s!"unknown field `{key}`, expected `tape_size` or `stack_depth`"

namespace Limits

/-- The name of the entry that holds the limits. -/
def entryName : String := "interpreter"

/-- The key under which a date or time gives its text. -/
def datetimeKey : String := "$__toml_private_datetime"

/-- A value as a count. -/
def countOf : Toml.Value → Except Misfit Nat
  | .integer n => if 0 ≤ n then .ok n.toNat else .error (.negative n)
  | v => .error (.wrongType v .count)

/-- The limits with one set from an entry of a table. -/
def withEntry (l : Limits) (key : String) (v : Toml.Value) : Except Misfit Limits :=
  if key = "tape_size" then do return { l with tapeSize := ← countOf v }
  else if key = "stack_depth" then do return { l with stackDepth := ← countOf v }
  else .error (.unknownKey key)

/-- The limits with those set that a table gives, in its order. -/
def withEntries (l : Limits) : List (String × Toml.Value) → Except Misfit Limits
  | [] => .ok l
  | (key, v) :: rest => do
    let l ← l.withEntry key v
    l.withEntries rest

/-- The limits with those set that an array gives: the tape's first, the stack's second. -/
def withItems (l : Limits) : List Toml.Value → Except Misfit Limits
  | [] => .ok l
  | [tape] => do return { l with tapeSize := ← countOf tape }
  | tape :: stack :: _ => do
    let tapeSize ← countOf tape
    let stackDepth ← countOf stack
    return ⟨tapeSize, stackDepth⟩

/-- The limits that a value gives. -/
def ofValue : Toml.Value → Except Misfit Limits
  | .table entries => ({} : Limits).withEntries entries
  | .array items => ({} : Limits).withItems items
  | .datetime => .error (.unknownKey datetimeKey)
  | v => .error (.wrongType v .limits)

/-- The limits that a document gives. -/
def ofDocument (entries : List (String × Toml.Value)) : Except Misfit Limits :=
  match entries.lookup entryName with
  | some v => ofValue v
  | none => .ok {}

end Limits

end Brainfuck
