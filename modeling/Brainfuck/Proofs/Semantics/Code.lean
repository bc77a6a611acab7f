import Brainfuck.Proofs.Brackets.Balance

/-!
Balanced text as a tree: bytes that are no brackets in a row, and loops, each with its body.

* `Code.text` writes a tree down and `Code.ofText?` reads it back; a text has one tree at most
  (`Code.ofText?_eq_some_iff`).
* It has one iff it is balanced (`Code.balanced_iff`).

The text is read from its end. What has been read is then a tree for each stretch between the `]`
that still wait for their `[`, and a `[` joins the first two of them.
-/

namespace Brainfuck

/-- A balanced text as a tree. -/
inductive Code where
  /-- The text is at its end. -/
  | done
  /-- A byte that is no bracket, and what follows. -/
  | byte (b : UInt8) (plain : b ≠ Instr.loopStart.toByte ∧ b ≠ Instr.loopEnd.toByte) (rest : Code)
  /-- A loop, and what follows. -/
  | loop (body rest : Code)

namespace Code

/-- The text of a tree. -/
def text : Code → List UInt8
  | done => []
  | byte b _ rest => b :: rest.text
  | loop body rest => Instr.loopStart.toByte :: (body.text ++ Instr.loopEnd.toByte :: rest.text)

/-- One text after the other. -/
def append : Code → Code → Code
  | done, d => d
  | byte b h rest, d => byte b h (rest.append d)
  | loop body rest, d => loop body (rest.append d)

/-- The trees of the stretches of a text between its unmatched `]`, the first one apart; there are
none if a `[` is unmatched. -/
def read : List UInt8 → Option (Code × List Code)
  | [] => some (done, [])
  | b :: t => (read t).bind fun (c, cs) =>
    if ho : b = Instr.loopStart.toByte then
      match cs with
      | [] => none
      | d :: cs => some (loop c d, cs)
    else if hc : b = Instr.loopEnd.toByte then some (done, c :: cs)
    else some (byte b ⟨ho, hc⟩ c, cs)

/-- The tree of a text, if it has one. -/
def ofText? (t : List UInt8) : Option Code :=
  match read t with
  | some (c, []) => some c
  | _ => none

/-- Trees with a `]` before each of them. -/
def closings (cs : List Code) : List UInt8 := cs.flatMap fun c => Instr.loopEnd.toByte :: c.text

/-! ### Writing and reading -/

@[simp] lemma append_done (c : Code) : c.append done = c := by
  induction c with
  | done => rfl
  | byte b h rest ih => rw [append, ih]
  | loop body rest _ ih => rw [append, ih]

lemma loopEnd_ne_loopStart : Instr.loopEnd.toByte ≠ Instr.loopStart.toByte := by decide

/-- What is read before a text joins its first tree. -/
lemma read_text_append (c : Code) (t : List UInt8) :
    read (c.text ++ t) = (read t).map fun (d, ds) => (c.append d, ds) := by
  induction c generalizing t with
  | done => simp [text, append]
  | byte b h rest ih =>
    rw [text, List.cons_append, read, ih]
    cases read t with
    | none => rfl
    | some r => simp [append, h.1, h.2]
  | loop body rest ihb ih =>
    rw [text, List.cons_append, List.append_assoc, List.cons_append, read, ihb, read, ih]
    cases read t with
    | none => rfl
    | some r => simp [append, loopEnd_ne_loopStart]

theorem ofText?_text (c : Code) : ofText? c.text = some c := by
  have h := read_text_append c []
  rw [List.append_nil] at h
  rw [ofText?, h]
  simp [read]

/-- What was read is written down again. -/
lemma text_of_read {t : List UInt8} {c : Code} {cs : List Code} (h : read t = some (c, cs)) :
    t = c.text ++ closings cs := by
  induction t generalizing c cs with
  | nil =>
    cases h
    rfl
  | cons b t ih =>
    obtain ⟨⟨d, ds⟩, hr, h⟩ := Option.bind_eq_some_iff.mp h
    have ht := ih hr
    split_ifs at h with ho hc
    · rcases ds with _ | ⟨e, ds⟩
      · cases h
      · cases h
        rw [ho, ht]
        simp [text, closings]
    · cases h
      rw [hc, ht]
      simp [text, closings]
    · cases h
      rw [ht]
      simp [text]

/-- **A text has one tree at most**, and is what that tree writes. -/
theorem ofText?_eq_some_iff {t : List UInt8} {c : Code} : ofText? t = some c ↔ c.text = t := by
  constructor
  · intro h
    unfold ofText? at h
    split at h
    · rename_i hr
      cases h
      rw [text_of_read hr]
      simp [closings]
    · cases h
  · rintro rfl
    exact ofText?_text c

/-! ### Trees and balance -/

lemma weight_plain {b : UInt8}
    (h : b ≠ Instr.loopStart.toByte ∧ b ≠ Instr.loopEnd.toByte) :
    Instr.weight (Instr.ofByte? b) = 0 := by
  rcases weight_cases (Instr.ofByte? b) with ⟨ho, -⟩ | ⟨hc, -⟩ | ⟨-, hw⟩
  · exact absurd (Instr.ofByte?_eq_some_iff.mp ho) h.1
  · exact absurd (Instr.ofByte?_eq_some_iff.mp hc) h.2
  · exact hw

lemma height_cons (b : UInt8) (t : List UInt8) :
    height (b :: t) = Instr.weight (Instr.ofByte? b) + height t := by
  simp [height]

lemma height_text (c : Code) : height c.text = 0 := by
  induction c with
  | done => rfl
  | byte b h rest ih => rw [text, height_cons, weight_plain h, ih, add_zero]
  | loop body rest ihb ih =>
    rw [text, height_cons, height_append, height_cons, ihb, ih]
    rfl

/-- The text of a tree is balanced. -/
theorem balanced_text (c : Code) : Balanced c.text := by
  refine ⟨?_, height_text c⟩
  induction c with
  | done =>
    intro p hp
    rw [List.prefix_nil.mp hp]
    rfl
  | byte b h rest ih =>
    intro p hp
    rcases List.prefix_cons_iff.mp hp with rfl | ⟨q, rfl, hq⟩
    · rfl
    · rw [height_cons, weight_plain h, zero_add]
      exact ih q hq
  | loop body rest ihb ih =>
    intro p hp
    rcases List.prefix_cons_iff.mp hp with rfl | ⟨q, rfl, hq⟩
    · rfl
    rw [height_cons, Instr.ofByte?_toByte, Instr.weight]
    rcases List.prefix_or_prefix_of_prefix hq (List.prefix_append _ _) with hq | ⟨u, rfl⟩
    · have := ihb q hq
      omega
    · have hu := (List.prefix_append_right_inj _).mp hq
      rw [height_append, height_text]
      rcases List.prefix_cons_iff.mp hu with rfl | ⟨v, rfl, hv⟩
      · decide
      · rw [height_cons, Instr.ofByte?_toByte, Instr.weight]
        have := ih v hv
        omega

/-- A text is read as long as no end of it opens more loops than it closes. -/
lemma read_isSome {t : List UInt8} (h : ∀ u, u <:+ t → height u ≤ 0) :
    ∃ c cs, read t = some (c, cs) ∧ (cs.length : Int) = - height t := by
  induction t with
  | nil => exact ⟨done, [], rfl, rfl⟩
  | cons b t ih =>
    obtain ⟨c, cs, hr, hlen⟩ := ih fun u hu => h u (hu.trans (List.suffix_cons b t))
    have hb := h (b :: t) List.suffix_rfl
    rw [height_cons] at hb ⊢
    rw [read, hr, Option.bind_some]
    split_ifs with ho hc
    · rw [ho, Instr.ofByte?_toByte, Instr.weight] at hb ⊢
      rcases cs with _ | ⟨d, cs⟩
      · rw [List.length_nil] at hlen
        omega
      · refine ⟨loop c d, cs, rfl, ?_⟩
        rw [List.length_cons] at hlen
        omega
    · rw [hc, Instr.ofByte?_toByte, Instr.weight] at hb ⊢
      refine ⟨done, c :: cs, rfl, ?_⟩
      rw [List.length_cons]
      omega
    · rw [weight_plain ⟨ho, hc⟩]
      exact ⟨byte b ⟨ho, hc⟩ c, cs, rfl, by omega⟩

/-- **Balanced texts are those that have a tree.** -/
theorem balanced_iff {t : List UInt8} : Balanced t ↔ ∃ c, ofText? t = some c := by
  constructor
  · rintro ⟨hn, hc⟩
    have hsuffix : ∀ u, u <:+ t → height u ≤ 0 := by
      rintro u ⟨v, rfl⟩
      rw [height_append] at hc
      have := hn v (List.prefix_append v u)
      omega
    obtain ⟨c, cs, hr, hlen⟩ := read_isSome hsuffix
    obtain rfl : cs = [] := List.eq_nil_of_length_eq_zero (by omega)
    exact ⟨c, by rw [ofText?, hr]⟩
  · rintro ⟨c, hc⟩
    rw [← ofText?_eq_some_iff.mp hc]
    exact balanced_text c

end Code

end Brainfuck
