import Brainfuck.Proofs.Semantics.Code
import Brainfuck.Failure
import Brainfuck.Run

/-!
What a tree means, loop by loop and without jumps: `Yields limit around ip code tape console result`
says what comes of the text of `code` at position `ip`, inside the loops that begin at the positions
`around`, the outermost first, when at most `limit` loops may be open at once.

There is no rule by which a loop that never ends yields anything: a text that runs for ever has no
result.
-/

namespace Brainfuck

/-- What comes of one instruction at `ip` that is no bracket: the tape that it leaves, or why it
fails, and the channels. A comment changes nothing. -/
inductive Effect (ip : Nat) (t : Tape) (c : Console) :
    Option Instr → Except Failure Tape → Console → Prop
  | comment : Effect ip t c none (.ok t) c
  | right : t.pointer + 1 < t.length → Effect ip t c (some .right) (.ok t.right) c
  | high : t.length ≤ t.pointer + 1 →
      Effect ip t c (some .right) (.error (.outOfBounds ip t.pointer .high)) c
  | left : 0 < t.pointer → Effect ip t c (some .left) (.ok t.left) c
  | low : t.pointer = 0 →
      Effect ip t c (some .left) (.error (.outOfBounds ip t.pointer .low)) c
  | increment : Effect ip t c (some .increment) (.ok t.increment) c
  | decrement : Effect ip t c (some .decrement) (.ok t.decrement) c
  | write {b : UInt8} {c' : Console} : t.get? = some b → c.put b = (.ok (), c') →
      Effect ip t c (some .output) (.ok t) c'
  | writeFails {b : UInt8} {f : Fault} {c' : Console} : t.get? = some b →
      c.put b = (.error f, c') → Effect ip t c (some .output) (.error (.io ip f)) c'
  | read {b : UInt8} {c' : Console} : c.take = (.ok (some b), c') →
      Effect ip t c (some .input) (.ok (t.set b)) c'
  | readEnds {c' : Console} : c.take = (.ok none, c') → Effect ip t c (some .input) (.ok t) c'
  | readFails {f : Fault} {c' : Console} : c.take = (.error f, c') →
      Effect ip t c (some .input) (.error (.io ip f)) c'

/-- What a text comes to. -/
inductive Result where
  /-- It is done. -/
  | finished (tape : Tape) (console : Console)
  /-- The instruction at `ip`, inside the loops that begin at `around`, has failed. -/
  | failed (failure : Failure) (tape : Tape) (console : Console) (ip : Nat) (around : List Nat)

/-- **The meaning of a tree.** Bytes are run one after the other. A loop on a zero cell does
nothing. On any other cell it fails when `limit` loops are around it already; else its body is run
inside one more loop, and then the loop again. A failure inside is the failure of the whole. -/
inductive Yields (limit : Nat) : List Nat → Nat → Code → Tape → Console → Result → Prop
  | done {around : List Nat} {ip : Nat} {t : Tape} {c : Console} :
      Yields limit around ip .done t c (.finished t c)
  | byte {around : List Nat} {ip : Nat} {b : UInt8} {plain} {rest : Code} {t t' : Tape}
      {c c' : Console} {res : Result} : Effect ip t c (Instr.ofByte? b) (.ok t') c' →
      Yields limit around (ip + 1) rest t' c' res →
      Yields limit around ip (.byte b plain rest) t c res
  | byteFails {around : List Nat} {ip : Nat} {b : UInt8} {plain} {rest : Code} {t : Tape}
      {c c' : Console} {f : Failure} : Effect ip t c (Instr.ofByte? b) (.error f) c' →
      Yields limit around ip (.byte b plain rest) t c (.failed f t c' ip around)
  | skip {around : List Nat} {ip : Nat} {body rest : Code} {t : Tape} {c : Console}
      {res : Result} : t.get? = some 0 →
      Yields limit around (ip + body.text.length + 2) rest t c res →
      Yields limit around ip (.loop body rest) t c res
  | overflow {around : List Nat} {ip : Nat} {body rest : Code} {t : Tape} {c : Console}
      {b : UInt8} : t.get? = some b → b ≠ 0 → limit ≤ around.length →
      Yields limit around ip (.loop body rest) t c
        (.failed (.stackOverflow ip limit) t c ip around)
  | bodyFails {around around' : List Nat} {ip ip' : Nat} {body rest : Code} {t t' : Tape}
      {c c' : Console} {b : UInt8} {f : Failure} : t.get? = some b → b ≠ 0 →
      around.length < limit →
      Yields limit (around ++ [ip]) (ip + 1) body t c (.failed f t' c' ip' around') →
      Yields limit around ip (.loop body rest) t c (.failed f t' c' ip' around')
  | again {around : List Nat} {ip : Nat} {body rest : Code} {t t' : Tape} {c c' : Console}
      {b : UInt8} {res : Result} : t.get? = some b → b ≠ 0 → around.length < limit →
      Yields limit (around ++ [ip]) (ip + 1) body t c (.finished t' c') →
      Yields limit around ip (.loop body rest) t' c' res →
      Yields limit around ip (.loop body rest) t c res

variable {limit ip : Nat} {around : List Nat} {code : Code} {t t' : Tape} {c c' : Console}
  {a : Option Instr}

/-! ### The pointer stays on the tape -/

lemma Effect.pointer_lt {r : Except Failure Tape} (h : Effect ip t c a r c') (hr : r = .ok t')
    (hlt : t.pointer < t.length) : t'.pointer < t'.length := by
  cases h with
  | comment | write | readEnds =>
    cases hr
    exact hlt
  | right hlt' =>
    cases hr
    exact hlt'
  | left h0 =>
    cases hr
    show t.pointer - 1 < t.length
    omega
  | increment | decrement =>
    cases hr
    exact (Tape.pointer_modify t _).symm ▸ (Tape.length_modify t _).symm ▸ hlt
  | read =>
    cases hr
    exact (Tape.pointer_set t _).symm ▸ (Tape.length_set t _).symm ▸ hlt
  | _ => cases hr

lemma Yields.pointer_lt {res : Result} (h : Yields limit around ip code t c res)
    (hres : res = .finished t' c') (hlt : t.pointer < t.length) : t'.pointer < t'.length := by
  induction h generalizing t' c' with
  | done =>
    cases hres
    exact hlt
  | byte he _ ih => exact ih hres (he.pointer_lt rfl hlt)
  | skip _ _ ih => exact ih hres hlt
  | again _ _ _ _ _ ihb ih => exact ih hres (ihb rfl hlt)
  | byteFails | overflow | bodyFails => cases hres

/-- Every instruction that is no bracket has an effect. -/
lemma Effect.exists (ip : Nat) (c : Console) (hlt : t.pointer < t.length)
    (ho : a ≠ some .loopStart) (hc : a ≠ some .loopEnd) :
    ∃ r c', Effect ip t c a r c' := by
  obtain ⟨b, hb⟩ := Tape.exists_get? hlt
  rcases a with _ | a
  · exact ⟨_, _, .comment⟩
  cases a with
  | right =>
    rcases Nat.lt_or_ge (t.pointer + 1) t.length with h | h
    · exact ⟨_, _, .right h⟩
    · exact ⟨_, _, .high h⟩
  | left =>
    rcases Nat.eq_zero_or_pos t.pointer with h | h
    · exact ⟨_, _, .low h⟩
    · exact ⟨_, _, .left h⟩
  | increment => exact ⟨_, _, .increment⟩
  | decrement => exact ⟨_, _, .decrement⟩
  | output =>
    rcases h : c.put b with ⟨_ | _, c'⟩
    · exact ⟨_, _, .writeFails hb h⟩
    · exact ⟨_, _, .write hb h⟩
  | input =>
    rcases h : c.take with ⟨_ | _ | b, c'⟩
    · exact ⟨_, _, .readFails h⟩
    · exact ⟨_, _, .readEnds h⟩
    · exact ⟨_, _, .read h⟩
  | loopStart => exact absurd rfl ho
  | loopEnd => exact absurd rfl hc

end Brainfuck
