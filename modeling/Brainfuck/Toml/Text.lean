import Brainfuck.Text.CharClass
import Brainfuck.Toml.Blank

/-!
TOML strings and keys.
-/

namespace Brainfuck.Toml

/-- Whether a character may stand unescaped in a string on one line, quotes and backslashes
apart. -/
def isTextChar (c : Char) : Bool := c = '\t' || (' ' ≤ c && c ≠ '\x7f')

/-- The character whose code is given by exactly `n` hexadecimal digits. -/
def codePoint (n : Nat) : Scan Char := do
  let digits ← (List.replicate n ()).mapM fun _ =>
    Scan.satisfy fun c => (CharClass.hexDigit? c).isSome
  match CharClass.ofHexDigits? digits with
  | some c => return c
  | none => failure

/-- An escape in a string. -/
def escape : Scan Char := do
  Scan.char '\\'
  match ← Scan.next with
  | 'b' => return '\x08'
  | 't' => return '\t'
  | 'n' => return '\n'
  | 'f' => return '\x0c'
  | 'r' => return '\r'
  | '"' => return '"'
  | '\\' => return '\\'
  | 'u' => codePoint 4
  | 'U' => codePoint 8
  | _ => failure

/-- A string between double quotes, on one line. -/
def basicString : Scan String := do
  Scan.char '"'
  let cs ← Scan.many (Scan.satisfy (fun c => isTextChar c && c ≠ '"' && c ≠ '\\') <|> escape)
  Scan.char '"'
  return String.ofList cs

/-- A string between single quotes, on one line, without escapes. -/
def literalString : Scan String := do
  Scan.char '\''
  let cs ← Scan.takeWhile fun c => isTextChar c && c ≠ '\''
  Scan.char '\''
  return String.ofList cs

/-- A backslash at the end of a line, which takes all white space after it away. -/
def foldedLine : Scan Unit := do
  Scan.char '\\'
  blanks
  newline
  let _ ← Scan.many (Scan.satisfy isBlank *> pure () <|> newline)

/-- Quotes inside a string of several lines: one or two, and no third. -/
def innerQuotes (quote : Char) : Scan (List Char) := fun input =>
  match input.takeWhile (· = quote) with
  | [a] => some ([a], input.drop 1)
  | [a, b] => some ([a, b], input.drop 2)
  | _ => none

/-- The end of a string of several lines: three quotes, before which one or two more belong to
the string. -/
def closingQuotes (quote : Char) : Scan (List Char) := fun input =>
  let n := (input.takeWhile (· = quote)).length
  if n < 3 then none
  else
    let kept := min (n - 3) 2
    some (List.replicate kept quote, input.drop (kept + 3))

/-- The characters of a string of several lines, `piece` by piece, after its opening quotes. -/
def longString (quote : Char) (piece : Scan (List Char)) : Scan String := do
  let _ ← Scan.optional? newline
  let pieces ← Scan.many (piece <|> innerQuotes quote)
  let last ← closingQuotes quote
  return String.ofList (pieces.flatten ++ last)

/-- A string between three double quotes. -/
def longBasicString : Scan String := do
  Scan.word "\"\"\""
  longString '"'
    ((fun c => [c]) <$> Scan.satisfy (fun c => isTextChar c && c ≠ '"' && c ≠ '\\')
      <|> (fun _ => []) <$> foldedLine
      <|> (fun c => [c]) <$> escape
      <|> (fun _ => ['\n']) <$> newline)

/-- A string between three single quotes. -/
def longLiteralString : Scan String := do
  Scan.word "'''"
  longString '\''
    ((fun c => [c]) <$> Scan.satisfy (fun c => isTextChar c && c ≠ '\'')
      <|> (fun _ => ['\n']) <$> newline)

/-- A string of any of the four forms. -/
def string : Scan String := longBasicString <|> basicString <|> longLiteralString <|> literalString

/-! ### Keys -/

/-- Whether a character may stand in a key without quotes. -/
def isKeyChar (c : Char) : Bool := c.isAlphanum || c = '_' || c = '-'

/-- A key without quotes. -/
def bareKey : Scan String := do
  let cs ← Scan.takeWhile isKeyChar
  if cs.isEmpty then failure else return String.ofList cs

/-- A key without dots. -/
def simpleKey : Scan String := basicString <|> literalString <|> bareKey

/-- A key with the keys of the tables that it leads through. -/
structure DottedKey where
  path : List String
  last : String
  deriving DecidableEq, Repr

/-- The number of parts that a dotted key must stay below, and of values that must not nest. -/
def maxDepth : Nat := 80

/-- A key, with dots or without. -/
def dottedKey : Scan DottedKey := do
  let parts ← Scan.separated (blanks *> simpleKey <* blanks) (Scan.char '.')
  if parts.length ≥ maxDepth then failure
  match parts.getLast? with
  | some last => return ⟨parts.dropLast, last⟩
  | none => failure

end Brainfuck.Toml
