import Brainfuck.Toml.Text
import Brainfuck.Toml.Value

/-!
TOML numbers, dates and times.
-/

namespace Brainfuck.Toml

/-- Digits of a kind, with single underscores between them. -/
def digits (isDigit : Char → Bool) : Scan (List Char) := do
  let first ← Scan.satisfy isDigit
  let others ← Scan.many (Scan.satisfy isDigit <|> Scan.char '_' *> Scan.satisfy isDigit)
  return first :: others

/-- The number that digits write in a base. -/
def ofDigits (base : Nat) (ds : List Char) : Nat :=
  ds.foldl (fun acc c => acc * base + (CharClass.hexDigit? c).getD 0) 0

/-- A sign, if there is one: whether it is a minus. -/
def sign : Scan Bool :=
  Scan.char '+' *> pure false <|> Scan.char '-' *> pure true <|> pure false

/-- The digits of a decimal number without leading zeros. -/
def wholeDigits : Scan (List Char) :=
  Scan.char '0' *> pure ['0'] <|> digits Char.isDigit

/-- An integer that has to fit in 64 bits with a sign. -/
def bounded (negative : Bool) (n : Nat) : Scan Value :=
  if negative then
    if n ≤ 1 <<< 63 then return .integer (-(n : Int)) else failure
  else
    if n < 1 <<< 63 then return .integer n else failure

/-- A decimal integer. -/
def decimal : Scan Value := do
  let negative ← sign
  let ds ← wholeDigits
  bounded negative (ofDigits 10 ds)

/-- An integer in another base, after its mark. -/
def radix (mark : String) (base : Nat) : Scan Value := do
  Scan.word mark
  let ds ← digits fun c => match CharClass.hexDigit? c with
    | some d => d < base
    | none => false
  bounded false (ofDigits base ds)

/-- An integer. -/
def integer : Scan Value := radix "0x" 16 <|> radix "0o" 8 <|> radix "0b" 2 <|> decimal

/-- The exponent of a floating-point number. -/
def exponent : Scan Int := do
  let _ ← Scan.satisfy fun c => c = 'e' || c = 'E'
  let negative ← sign
  let ds ← digits Char.isDigit
  let n := ofDigits 10 ds
  return if negative then -(n : Int) else n

/-- A floating-point number with a fraction, an exponent or both. One that is too large for the
format is refused. -/
def pointed : Scan Value := do
  let negative ← sign
  let whole ← wholeDigits
  let fraction ← Scan.optional? (Scan.char '.' *> digits Char.isDigit)
  let power ← Scan.optional? exponent
  if fraction.isNone && power.isNone then failure
  let places := fraction.getD []
  let x := Decimal.nearest (ofDigits 10 (whole ++ places)) (power.getD 0 - places.length)
  if negative then return .float (-x)
  else if x == 1.0 / 0.0 then failure
  else return .float x

/-- Infinity, or what is no number. -/
def special : Scan Value := do
  let negative ← sign
  let x ← Scan.word "inf" *> pure (1.0 / 0.0 : Float) <|> Scan.word "nan" *> pure (0.0 / 0.0 : Float)
  return .float (if negative then -x else x)

/-! ### Dates and times -/

/-- A number of exactly `n` digits. -/
def fixedDigits (n : Nat) : Scan Nat := do
  let ds ← (List.replicate n ()).mapM fun _ => Scan.satisfy Char.isDigit
  return ofDigits 10 ds

/-- A number of exactly two digits within bounds. -/
def twoDigits (low high : Nat) : Scan Nat := do
  let n ← fixedDigits 2
  if low ≤ n ∧ n ≤ high then return n else failure

/-- The number of days in a month. -/
def daysIn (year month : Nat) : Nat :=
  if month = 2 then
    if year % 4 = 0 ∧ (year % 100 ≠ 0 ∨ year % 400 = 0) then 29 else 28
  else if month = 4 ∨ month = 6 ∨ month = 9 ∨ month = 11 then 30
  else 31

/-- A date. -/
def date : Scan Unit := do
  let year ← fixedDigits 4
  Scan.char '-'
  let month ← twoDigits 1 12
  Scan.char '-'
  let _ ← twoDigits 1 (daysIn year month)

/-- A time of day. -/
def time : Scan Unit := do
  let _ ← twoDigits 0 23
  Scan.char ':'
  let _ ← twoDigits 0 59
  Scan.char ':'
  let _ ← twoDigits 0 60
  let _ ← Scan.optional? (do
    Scan.char '.'
    let ds ← Scan.takeWhile Char.isDigit
    if ds.isEmpty then failure)

/-- The distance of a local time from the common one. -/
def offset : Scan Unit :=
  Scan.satisfy (fun c => c = 'Z' || c = 'z') *> pure () <|> do
    let _ ← Scan.satisfy fun c => c = '+' || c = '-'
    let _ ← twoDigits 0 23
    Scan.char ':'
    let _ ← twoDigits 0 59

/-- A date, a time, or both. -/
def datetime : Scan Value := do
  let dated := do
    date
    let _ ← Scan.optional? (do
      let _ ← Scan.satisfy fun c => c = 'T' || c = 't' || c = ' '
      time
      let _ ← Scan.optional? offset)
  dated <|> time
  return .datetime

/-- What begins like a number. -/
def number : Scan Value := datetime <|> pointed <|> special <|> integer

end Brainfuck.Toml
