/-!
UTF-8: byte strings read as text.

`pieces` reads any byte string as characters and malformed sequences, each of which is as long as
a character that could still begin that way. Reading is strict (`decode?`) when a malformed
sequence refuses the whole, and lenient (`display`) when it shows as U+FFFD.
-/

namespace Brainfuck.Utf8

/-- What a leading byte announces: the number of bytes that follow, the range of the first of
these, and the bits that the leading byte gives. -/
structure Lead where
  more : Nat
  low : UInt8
  high : UInt8
  bits : Nat

/-- The announcement of a leading byte; a byte that leads nothing has none. -/
def lead? (b : UInt8) : Option Lead :=
  let bits := b.toNat
  if b < 0x80 then some ⟨0, 0, 0, bits⟩
  else if b < 0xc2 then none
  else if b < 0xe0 then some ⟨1, 0x80, 0xbf, bits - 0xc0⟩
  else if b = 0xe0 then some ⟨2, 0xa0, 0xbf, bits - 0xe0⟩
  else if b = 0xed then some ⟨2, 0x80, 0x9f, bits - 0xe0⟩
  else if b < 0xf0 then some ⟨2, 0x80, 0xbf, bits - 0xe0⟩
  else if b = 0xf0 then some ⟨3, 0x90, 0xbf, bits - 0xf0⟩
  else if b < 0xf4 then some ⟨3, 0x80, 0xbf, bits - 0xf0⟩
  else if b = 0xf4 then some ⟨3, 0x80, 0x8f, bits - 0xf0⟩
  else none

/-- The number that `more` further bytes complete, if they are all there and in range, and the
bytes after the last one that fits. -/
def complete (more : Nat) (low high : UInt8) (bits : Nat) : List UInt8 → Option Nat × List UInt8
  | [] => (if more = 0 then some bits else none, [])
  | b :: rest =>
    match more with
    | 0 => (some bits, b :: rest)
    | more + 1 =>
      if low ≤ b ∧ b ≤ high then complete more 0x80 0xbf (bits * 64 + (b.toNat - 0x80)) rest
      else (none, b :: rest)

theorem complete_length_le (more : Nat) (low high : UInt8) (bits : Nat) (bs : List UInt8) :
    (complete more low high bits bs).2.length ≤ bs.length := by
  induction bs generalizing more low high bits with
  | nil => simp [complete]
  | cons b rest ih =>
    unfold complete
    cases more with
    | zero => simp
    | succ more =>
      dsimp only
      split
      · exact Nat.le_trans (ih ..) (Nat.le_succ _)
      · simp

/-- The piece that begins with byte `b`, and the bytes after it. -/
def piece (b : UInt8) (rest : List UInt8) : Option Char × List UInt8 :=
  match lead? b with
  | none => (none, rest)
  | some l =>
    let (code, rest) := complete l.more l.low l.high l.bits rest
    (code.map Char.ofNat, rest)

theorem piece_length_le (b : UInt8) (rest : List UInt8) :
    (piece b rest).2.length ≤ rest.length := by
  unfold piece
  split
  · simp
  · exact complete_length_le ..

/-- A byte string as characters, with `none` for each malformed sequence. -/
def pieces : List UInt8 → List (Option Char)
  | [] => []
  | b :: rest =>
    have := piece_length_le b rest
    (piece b rest).1 :: pieces (piece b rest).2
termination_by bs => bs.length
decreasing_by simp only [List.length_cons]; omega

/-- The text of a byte string that is all UTF-8. -/
def decode? (bs : List UInt8) : Option String :=
  ((pieces bs).mapM id).map String.ofList

/-- The text of any byte string, with U+FFFD for what is malformed. -/
def display (bs : List UInt8) : String :=
  String.ofList ((pieces bs).map fun c => c.getD (Char.ofNat 0xfffd))

/-- The bytes of a text. -/
def encode (s : String) : List UInt8 := s.toUTF8.toList

end Brainfuck.Utf8
