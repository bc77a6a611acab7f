import Brainfuck.Text.Utf8

/-!
Paths: byte strings that name files, step by step.
-/

namespace Brainfuck

/-- A name of a file, as bytes; it need not be UTF-8. -/
structure Path where
  bytes : List UInt8
  deriving DecidableEq, Repr, Inhabited

namespace Path

/-- The byte that separates the names in a path. -/
def separator : UInt8 := 0x2f

/-- The path with the given text. -/
def ofString (s : String) : Path := ⟨Utf8.encode s⟩

/-- The path as messages show it. -/
def text (p : Path) : String := Utf8.display p.bytes

/-- Whether a path starts at the root. -/
def isAbsolute (p : Path) : Bool := p.bytes.head? = some separator

/-- A relative name below a path. Between the two stands a single separator, and none below the
empty path. -/
def join (p : Path) (name : String) : Path :=
  let tail := Utf8.encode name
  if p.bytes.isEmpty || p.bytes.getLast? = some separator then ⟨p.bytes ++ tail⟩
  else ⟨p.bytes ++ separator :: tail⟩

/-- The pieces between separators, empty ones included; there is always one. -/
def split : List UInt8 → List (List UInt8)
  | [] => [[]]
  | b :: rest =>
    if b = separator then [] :: split rest
    else
      match split rest with
      | [] => [[b]]
      | name :: names => (b :: name) :: names

/-- The name of a directory in itself. -/
def here : List UInt8 := [0x2e]

/-- The name of the directory that holds a directory. -/
def above : List UInt8 := [0x2e, 0x2e]

/-- The names that a path leads through. A path that ends in a separator asks for a directory, as
if the directory's own name followed. -/
def names (p : Path) : List (List UInt8) :=
  let names := (split p.bytes).filter (!·.isEmpty)
  if p.bytes.getLast? = some separator then names ++ [here] else names

end Path

end Brainfuck
