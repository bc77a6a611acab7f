/-!
Text for a terminal: marks of emphasis are escape sequences, and a plain rendering leaves out
every escape sequence and every control character that is not white space.
-/

namespace Brainfuck.Terminal

/-- Where a reader of terminal text stands. -/
inductive Mode where
  | ground
  /-- After the escape character. -/
  | escape
  /-- After the escape character and further characters that announce one more. -/
  | announced
  /-- In a control sequence. -/
  | sequence
  /-- At the beginning of a device control string. -/
  | device
  /-- In the parameters of a device control string. -/
  | deviceParameters
  /-- After the parameters of a device control string, before its final character. -/
  | deviceAnnounced
  /-- In a string that a terminator ends. -/
  | string
  /-- In a command for the system, which a bell ends. -/
  | command
  deriving DecidableEq, Repr

/-- Whether a control character counts as white space. -/
def isSpaceControl (c : Char) : Bool := c = '\t' || c = '\n' || c = '\x0c' || c = '\r'

/-- Whether a control character gives up the sequence it stands in. -/
def isCancel (c : Char) : Bool := c = '\x18' || c = '\x1a'

/-- Whether a character announces that a sequence goes on. -/
def isAnnouncement (c : Char) : Bool := ' ' ≤ c && c ≤ '/'

/-- Whether a character terminates a string: its bytes contain the eight-bit terminator. -/
def isTerminator (c : Char) : Bool := (String.utf8EncodeChar c).contains 0x9c

/-- The mode after the character that follows an escape character. -/
def opened (c : Char) : Mode :=
  match c with
  | '[' => .sequence
  | ']' => .command
  | 'P' => .device
  | 'X' | '^' | '_' => .string
  | _ =>
    if isAnnouncement c then .announced
    else if '0' ≤ c && c ≤ '~' then .ground
    else .escape

/-- The mode after a character of the head of a device control string, where `mode` is the part of
the head that it stands in. The character after the head begins a string. -/
def deviceHead (mode : Mode) (c : Char) : Mode :=
  if isAnnouncement c then .deviceAnnounced
  else if '@' ≤ c && c ≤ '~' then .string
  else if '0' ≤ c && c ≤ '?' then
    match mode with
    | .device => .deviceParameters
    | .deviceParameters => if c ≤ ';' then .deviceParameters else .string
    | _ => .string
  else mode

/-- The mode after a character, and whether the character shows. -/
def step (mode : Mode) (c : Char) : Mode × Bool :=
  if c = '\x1b' then (.escape, false)
  else if isCancel c then (.ground, false)
  else
    match mode with
    | .ground => (.ground, isSpaceControl c || (c ≥ ' ' && c ≠ '\x7f'))
    | .escape => if isSpaceControl c then (.ground, true) else (opened c, false)
    | .announced =>
      if isSpaceControl c then (.ground, true)
      else (if '0' ≤ c && c ≤ '~' then .ground else .announced, false)
    | .sequence =>
      if isSpaceControl c then (.ground, true)
      else (if '@' ≤ c && c ≤ '~' then .ground else .sequence, false)
    | .device | .deviceParameters | .deviceAnnounced => (deviceHead mode c, false)
    | .string => (if isTerminator c then .ground else .string, false)
    | .command => (if c = '\x07' then .ground else .command, false)

/-- The characters that show. -/
def visible (mode : Mode) : List Char → List Char
  | [] => []
  | c :: rest =>
    let (mode, shown) := step mode c
    if shown then c :: visible mode rest else visible mode rest

/-- A text without escape sequences and control characters. -/
def plain (s : String) : String := String.ofList (visible .ground s.toList)

/-- The mark that ends an emphasis. -/
def reset : String := "\x1b[0m"

/-- The first line of a text, without its line end. -/
def firstLine (s : String) : String :=
  let line := s.toList.takeWhile (· ≠ '\n')
  if line.getLast? = some '\r' then String.ofList line.dropLast else String.ofList line

end Brainfuck.Terminal
