/-!
Scanning of characters: scanners read a piece of the input and leave the rest, or fail.
-/

namespace Brainfuck

/-- A scanner: what it makes of the input, and the rest of it. -/
abbrev Scan (α : Type) := StateT (List Char) Option α

namespace Scan

/-- The next character, which has to satisfy `p`. -/
def satisfy (p : Char → Bool) : Scan Char := fun input =>
  match input with
  | c :: rest => if p c then some (c, rest) else none
  | [] => none

/-- The next character, whatever it is. -/
def next : Scan Char := satisfy fun _ => true

/-- The given character. -/
def char (c : Char) : Scan Unit := do
  let _ ← satisfy (· = c)

/-- The given characters, in order. -/
def word (s : String) : Scan Unit := s.toList.forM char

/-- The next character, left where it is. -/
def peek? : Scan (Option Char) := fun input => some (input.head?, input)

/-- The characters from here on that satisfy `p`. -/
def takeWhile (p : Char → Bool) : Scan (List Char) := fun input =>
  some (input.takeWhile p, input.dropWhile p)

/-- What a scanner reads, if it reads anything. -/
def optional? {α : Type} (s : Scan α) : Scan (Option α) := fun input =>
  match s input with
  | some (a, rest) => some (some a, rest)
  | none => some (none, input)

/-- Whether the input is at its end. -/
def atEnd : Scan Bool := fun input => some (input.isEmpty, input)

/-- What a scanner reads, as often as it reads something, and no more often than there are
characters in `fuel`. -/
def manyWithin {α : Type} (s : Scan α) : List Char → Scan (List α)
  | [] => pure []
  | _ :: fuel => do
    match ← optional? s with
    | none => pure []
    | some a => return a :: (← manyWithin s fuel)

/-- What a scanner reads, as often as it reads something. A scanner that reads no character can
be run no more often than there are characters. -/
def many {α : Type} (s : Scan α) : Scan (List α) := fun input => manyWithin s input input

/-- One or more readings of `s` with `separator` between each two. -/
def separated {α : Type} (s : Scan α) (separator : Scan Unit) : Scan (List α) := do
  let first ← s
  let others ← many (separator *> s)
  return first :: others

end Scan

end Brainfuck
