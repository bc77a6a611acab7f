/-!
The decimal text of a floating-point number: the fewest digits that read back as the number, never
with an exponent and always with a point.

A finite number is m · 2^q. The numbers that round to it form an interval around it, whose ends
belong to it exactly when m is even. The digits are those of the point of the coarsest decimal
grid that has one in that interval, and of two such points the nearer.
-/

namespace Brainfuck.Decimal

/-- A positive finite number m · 2^q with its neighbourhood, over a common denominator. -/
structure Span where
  /-- The number times four, and the ends of its interval times four, each over `den`. -/
  low : Nat
  value : Nat
  high : Nat
  den : Nat
  /-- Whether the ends belong to the interval. -/
  closed : Bool

/-- The span of the number with significand `m` and exponent `q`; `narrow` says that the next
number below is only half as far away as the next above. -/
def Span.of (m : Nat) (q : Int) (narrow : Bool) : Span :=
  let up := 1 <<< q.toNat
  { low := (4 * m - if narrow then 1 else 2) * up
    value := 4 * m * up
    high := (4 * m + 2) * up
    den := 4 <<< (-q).toNat
    closed := m % 2 == 0 }

/-- Whether d · 10^p lies in the interval of a span. -/
def Span.holds (s : Span) (d : Nat) (p : Int) : Bool :=
  let x := d * Nat.pow 10 p.toNat * s.den
  let unit := Nat.pow 10 (-p).toNat
  if s.closed then s.low * unit ≤ x && x ≤ s.high * unit
  else s.low * unit < x && x < s.high * unit

/-- The multiple of 10^p in the interval that is nearest to the number, if there is one. -/
def Span.gridPoint? (s : Span) (p : Int) : Option Nat :=
  let num := s.value * Nat.pow 10 (-p).toNat
  let den := s.den * Nat.pow 10 p.toNat
  let d := num / den
  let twice := 2 * (num % den)
  match s.holds d p, s.holds (d + 1) p with
  | true, true => some (if twice < den then d else d + 1)
  | true, false => some d
  | false, true => some (d + 1)
  | false, false => none

/-- Digits and exponent of the coarsest grid, from 10^p on, that has a point in the interval. -/
def Span.shortest (s : Span) : Nat → Int → Nat × Int
  | 0, p => (s.value * Nat.pow 10 (-p).toNat / (s.den * Nat.pow 10 p.toNat), p)
  | fuel + 1, p =>
    match s.gridPoint? p with
    | some d => (d, p)
    | none => shortest s fuel (p - 1)

/-- An exponent p for which 10^p is not below the number of a span. -/
def Span.topExponent (s : Span) : Int :=
  let bits : Int := (Nat.log2 s.value : Int) - (Nat.log2 s.den : Int) + 1
  bits * 30103 / 100000 + 2

/-- The text of d · 10^p, with a point and at least one digit on either side of it. -/
def positional (d : Nat) (p : Int) : String :=
  if p ≥ 0 then toString (d * Nat.pow 10 p.toNat) ++ ".0"
  else
    let places := (-p).toNat
    let digits := (toString d).toList
    let padded := List.replicate (places + 1 - digits.length) '0' ++ digits
    let whole := padded.length - places
    String.ofList (padded.take whole) ++ "." ++ String.ofList (padded.drop whole)

/-- The text of a number. -/
def text (x : Float) : String :=
  let bits := x.toBits.toNat
  let sign := if bits ≥ 1 <<< 63 then "-" else ""
  let biased : Nat := bits >>> 52 % 1 <<< 11
  let fraction : Nat := bits % 1 <<< 52
  if biased = 2047 then
    if fraction = 0 then sign ++ "inf" else "NaN"
  else if biased = 0 ∧ fraction = 0 then sign ++ "0.0"
  else
    let span :=
      if biased = 0 then Span.of fraction (-1074) false
      else Span.of (1 <<< 52 + fraction) ((biased : Int) - 1075) (fraction == 0 && biased > 1)
    let (d, p) := span.shortest 24 span.topExponent
    sign ++ positional d p

/-- The number nearest to m · 10^e; what is out of reach is infinite or zero. -/
def nearest (m : Nat) (e : Int) : Float :=
  let size : Int := (Nat.toDigits 10 m).length + e
  if m = 0 ∨ size < -400 then 0.0
  else if size > 400 then 1.0 / 0.0
  else Float.ofScientific m (e < 0) e.natAbs

end Brainfuck.Decimal
