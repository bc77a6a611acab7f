import Brainfuck.Files.Path
import Brainfuck.Limits.Resolve
import Brainfuck.Text.Terminal

/-!
The options of a command line.

Arguments are read from left to right. The value of an argument is checked only when the next
argument of the tool has been recognised, or at the end; so an argument that is not recognised is
reported before a bad value directly in front of it. After the arguments, the environment gives
the limits that they did not.
-/

namespace Brainfuck

/-- What an argument gives. -/
inductive Slot where
  | help
  | greeting
  | code
  | tapeSize
  | stackDepth
  | file
  deriving DecidableEq, Repr

/-- The slot as messages show it. -/
def Slot.text : Slot → String
  | .help => "--help"
  | .greeting => "-d"
  | .code => "-c <code>"
  | .tapeSize => "--tape-size <N>"
  | .stackDepth => "--stack-depth <N>"
  | .file => "[brainfuck_file]"

/-! ### Counts -/

/-- A reason why a text is no count. -/
inductive CountError where
  | invalidDigit
  | empty
  | tooLarge
  deriving DecidableEq, Repr

/-- The text of the reason. -/
def CountError.text : CountError → String
  | .invalidDigit => "invalid digit found in string"
  | .empty => "cannot parse integer from empty string"
  | .tooLarge => "number too large to fit in target type"

namespace Count

/-- The largest count: 64 bits. -/
def max : Nat := 18446744073709551615

/-- The count that digits add up to after `n`. The first digit that is none, or that makes the
count too large, is the one that is reported. -/
def ofDigits (n : Nat) : List Char → Except CountError Nat
  | [] => .ok n
  | c :: rest =>
    if !c.isDigit then .error .invalidDigit
    else
      let n := n * 10 + (c.toNat - 48)
      if n > max then .error .tooLarge else ofDigits n rest

/-- The count that a text writes: digits, perhaps after a plus sign. -/
def parse (s : String) : Except CountError Nat :=
  match s.toList with
  | [] => .error .empty
  | ['+'] => .error .invalidDigit
  | '+' :: rest => ofDigits 0 rest
  | cs => ofDigits 0 cs

end Count

/-! ### Errors -/

/-- A command line that cannot be read. -/
inductive UsageError where
  /-- A slot is named and given no value. -/
  | missingValue (slot : Slot)
  /-- An argument, or a part of one, means nothing. -/
  | unexpected (argument : String)
  /-- A value is given to a slot that takes none. -/
  | unexpectedValue (value : String) (slot : Slot)
  /-- A slot is given twice. -/
  | repeated (slot : Slot)
  /-- A value is no count. -/
  | badCount (value : String) (slot : Slot) (cause : CountError)
  /-- A value is not text. -/
  | notUtf8
  deriving DecidableEq, Repr

namespace UsageError

/-- A piece of the command line inside a message. -/
def quoted (s : String) : String := s!"'{s}{Terminal.reset}'"

/-- The message for a terminal. -/
def styled : UsageError → String
  | missingValue slot => s!"error: a value is required for '{slot.text}' but none was supplied"
  | unexpected argument => s!"error: unexpected argument {quoted argument} found"
  | unexpectedValue value slot =>
    s!"error: unexpected value {quoted value} for '{slot.text}' found; no more were expected"
  | repeated slot => s!"error: the argument '{slot.text}' cannot be used multiple times"
  | badCount value slot cause =>
    s!"error: invalid value {quoted value} for '{slot.text}': {cause.text}"
  | notUtf8 => "error: invalid UTF-8 was detected in one or more arguments"

/-- The message: one line of plain text. -/
def message (e : UsageError) : String := Terminal.firstLine (Terminal.plain e.styled)

end UsageError

/-! ### Options -/

/-- The options that a command line gives. -/
structure Options where
  help : Bool := false
  greeting : Bool := false
  code : Option String := none
  tapeSize : Option Nat := none
  stackDepth : Option Nat := none
  file : Option Path := none
  deriving DecidableEq, Repr, Inhabited

namespace Options

/-- Whether a slot has been given. -/
def has (o : Options) : Slot → Bool
  | .help => o.help
  | .greeting => o.greeting
  | .code => o.code.isSome
  | .tapeSize => o.tapeSize.isSome
  | .stackDepth => o.stackDepth.isSome
  | .file => o.file.isSome

/-- The text of a value. -/
def textOf (value : List UInt8) : Except UsageError String :=
  match Utf8.decode? value with
  | some s => .ok s
  | none => .error .notUtf8

/-- The count that a value writes. -/
def countOf (slot : Slot) (value : List UInt8) : Except UsageError Nat := do
  let s ← textOf value
  match Count.parse s with
  | .ok n => .ok n
  | .error cause => .error (.badCount s slot cause)

/-- The options with one more slot given. -/
def give (o : Options) (slot : Slot) (value : List UInt8) : Except UsageError Options := do
  if o.has slot then .error (.repeated slot)
  match slot with
  | .help => return { o with help := true }
  | .greeting => return { o with greeting := true }
  | .code => return { o with code := some (← textOf value) }
  | .tapeSize => return { o with tapeSize := some (← countOf slot value) }
  | .stackDepth => return { o with stackDepth := some (← countOf slot value) }
  | .file =>
    if value.isEmpty then .error (.missingValue slot)
    return { o with file := some ⟨value⟩ }

/-- Options that are being read. -/
structure Reader where
  options : Options := {}
  /-- A slot that was named, and its value once it is there. -/
  pending : Option (Slot × Option (List UInt8)) := none
  /-- Whether the place of the file is taken. -/
  fileGiven : Bool := false
  /-- Whether no further argument is an option. -/
  trailing : Bool := false

namespace Reader

/-- Gives the pending slot its value. -/
def settle (r : Reader) : Except UsageError Reader :=
  match r.pending with
  | none => .ok r
  | some (slot, none) => .error (.missingValue slot)
  | some (slot, some value) => do
    return { r with options := ← r.options.give slot value, pending := none }

/-- Gives a slot a value that is there already. -/
def give (r : Reader) (slot : Slot) (value : List UInt8) : Except UsageError Reader := do
  let r ← r.settle
  return { r with options := ← r.options.give slot value }

/-- Waits for the value of a slot. -/
def await (r : Reader) (slot : Slot) : Except UsageError Reader := do
  let r ← r.settle
  return { r with pending := some (slot, none) }

/-- The slot that waits for its value. -/
def awaited? (r : Reader) : Option Slot :=
  match r.pending with
  | some (slot, none) => some slot
  | _ => none

/-- Reads an argument that is no option. -/
def positional (r : Reader) (arg : List UInt8) : Except UsageError Reader :=
  if r.fileGiven then .error (.unexpected (Utf8.display arg))
  else do
    let r ← r.settle
    return { r with pending := some (.file, some arg), fileGiven := true }

/-- The byte between a long option and its value. -/
def equals : UInt8 := 0x3d

/-- Reads a long option, without its two dashes. -/
def long (r : Reader) (arg : List UInt8) : Except UsageError Reader :=
  let name := arg.takeWhile (· ≠ equals)
  let value := if arg.contains equals then some (arg.drop (name.length + 1)) else none
  let limit (slot : Slot) : Except UsageError Reader :=
    match value with
    | some value => r.give slot value
    | none => r.await slot
  match Utf8.decode? name with
  | some "help" =>
    match value with
    | some value => .error (.unexpectedValue (Utf8.display value) .help)
    | none => r.give .help []
  | some "tape-size" => limit .tapeSize
  | some "stack-depth" => limit .stackDepth
  | _ => .error (.unexpected ("--" ++ Utf8.display name))

/-- Reads short options, without their dash. The rest of the argument after `-c` is its value. -/
def short (r : Reader) : List UInt8 → Except UsageError Reader
  | [] => .ok r
  | b :: rest =>
    match Utf8.piece b rest with
    | (some 'h', _) => do
      let r ← r.give .help []
      r.short rest
    | (some 'd', _) => do
      let r ← r.give .greeting []
      r.short rest
    | (some 'c', _) =>
      match rest with
      | [] => r.await .code
      | b :: value => r.give .code (if b = equals then value else b :: value)
    | (some c, _) => .error (.unexpected ("-" ++ c.toString))
    | (none, _) => .error (.unexpected ("-" ++ Utf8.display (b :: rest)))

/-- Reads one argument. -/
def argument (r : Reader) (arg : List UInt8) : Except UsageError Reader :=
  if r.trailing then r.positional arg
  else if r.awaited? = some .code then .ok { r with pending := some (.code, some arg) }
  else
    match arg with
    | [0x2d, 0x2d] => .ok { r with trailing := true }
    | 0x2d :: 0x2d :: name => r.long name
    | 0x2d :: b :: rest => r.short (b :: rest)
    | _ =>
      match r.awaited? with
      | some slot => .ok { r with pending := some (slot, some arg) }
      | none => r.positional arg

end Reader

/-- The options with a limit from the environment, unless they have it already. -/
def fromEnvironment (o : Options) (env : Environment) (slot : Slot) (name : String) :
    Except UsageError Options :=
  if o.has slot then .ok o
  else
    match env.get? name with
    | some value => o.give slot value
    | none => .ok o

/-- The options that arguments and environment give. -/
def parse (env : Environment) (args : List (List UInt8)) : Except UsageError Options := do
  let r ← args.foldlM Reader.argument {}
  let r ← r.settle
  let o ← r.options.fromEnvironment env .tapeSize "BF_TAPE_SIZE"
  o.fromEnvironment env .stackDepth "BF_STACK_DEPTH"

end Options

end Brainfuck
