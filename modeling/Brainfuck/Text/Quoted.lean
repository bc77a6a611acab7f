import Brainfuck.Text.Printable

/-!
Quoted text: between double quotes, with escapes for what could not be told apart otherwise.
-/

namespace Brainfuck.Quoted

/-- A number in lower-case hexadecimal digits. -/
def hex (n : Nat) : String := String.ofList (Nat.toDigits 16 n)

/-- A character inside quotes: the line and tab controls, the quote and the backslash have short
escapes; combining and unprintable characters are given by their code. -/
def escape (c : Char) : String :=
  if c = '\x00' then "\\0"
  else if c = '\t' then "\\t"
  else if c = '\r' then "\\r"
  else if c = '\n' then "\\n"
  else if c = '"' then "\\\""
  else if c = '\\' then "\\\\"
  else if !Printable.isCombining c && Printable.isPrintable c then c.toString
  else "\\u\x7b" ++ hex c.toNat ++ "\x7d"

/-- A text between double quotes. -/
def quote (s : String) : String := "\"" ++ String.join (s.toList.map escape) ++ "\""

end Brainfuck.Quoted
