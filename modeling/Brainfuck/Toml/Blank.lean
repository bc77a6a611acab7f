import Brainfuck.Text.Scan

/-!
Blanks, line ends and comments of a TOML document.
-/

namespace Brainfuck.Toml

/-- Whether a character is a blank within a line. -/
def isBlank (c : Char) : Bool := c = ' ' || c = '\t'

/-- Whether a character may stand in a comment. -/
def isCommentChar (c : Char) : Bool := c = '\t' || (' ' ≤ c && c ≠ '\x7f')

/-- Blanks, if there are any. -/
def blanks : Scan Unit := do
  let _ ← Scan.takeWhile isBlank

/-- A line end. -/
def newline : Scan Unit := Scan.char '\n' <|> Scan.word "\r\n"

/-- A comment, up to the end of its line. -/
def comment : Scan Unit := do
  Scan.char '#'
  let _ ← Scan.takeWhile isCommentChar

/-- A line end or the end of the input. -/
def lineEnd : Scan Unit := do
  if ← Scan.atEnd then return
  newline

/-- The rest of a line after a statement: blanks, and perhaps a comment. -/
def lineRest : Scan Unit := do
  blanks
  let _ ← Scan.optional? comment
  lineEnd

/-- Blanks, line ends and comments, if there are any. -/
def gaps : Scan Unit := do
  let _ ← Scan.many (Scan.satisfy isBlank *> pure () <|> newline <|> comment *> newline)

end Brainfuck.Toml
