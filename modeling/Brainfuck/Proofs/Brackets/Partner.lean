import Brainfuck.Proofs.Brackets.Search

/-!
Partners. Backward, the search for a partner looks for the last place at which the profile was lower
than where the search began (`scanBackward_eq_some_iff`); so it finds the `[` since which the text is
balanced, in any text whatever (`loopStart?_eq_some_iff`).

Either search therefore finds `Matched` brackets and finds all of them. What is matched is matched from
both ends, matched pairs lie within one another or apart (`Matched.within_or_apart`), and a text is
balanced iff no bracket of it is left alone (`balanced_iff_forall_matched`). `Program.partners_nest`
says so of the searches.
-/

namespace Brainfuck

variable {t : List UInt8} {d : Int} {i i' j j' k n inner : Nat}

/-! ### Backward -/

/-- `j` is the last place before `n` at which the profile is below `d`. -/
def LastBelow (t : List UInt8) (d : Int) (n j : Nat) : Prop :=
  j < n ∧ depthAt t j < d ∧ ∀ k, j < k → k ≤ n → d ≤ depthAt t k

lemma lastBelow_succ (h : d ≤ depthAt t n) (h' : d ≤ depthAt t (n + 1)) :
    LastBelow t d (n + 1) j ↔ LastBelow t d n j := by
  constructor
  · rintro ⟨hjn, hd, hk⟩
    refine ⟨?_, hd, fun k hjk hkn => hk k hjk (by omega)⟩
    rcases Nat.eq_or_lt_of_le (Nat.le_of_lt_succ hjn) with rfl | hjn
    · omega
    · exact hjn
  · rintro ⟨hjn, hd, hk⟩
    refine ⟨by omega, hd, fun k hjk hkn => ?_⟩
    rcases Nat.eq_or_lt_of_le hkn with rfl | hkn
    · exact h'
    · exact hk k hjk (by omega)

lemma lastBelow_self (h : depthAt t n < d) (h' : d ≤ depthAt t (n + 1)) :
    LastBelow t d (n + 1) j ↔ n = j := by
  constructor
  · rintro ⟨hjn, hd, hk⟩
    by_contra hne
    have := hk n (by omega) (by omega)
    omega
  · rintro rfl
    refine ⟨by omega, h, fun k hnk hkn => ?_⟩
    obtain rfl : k = n + 1 := by omega
    exact h'

namespace Program

variable {p : Program}

/-- **The backward search** stops at the last place at which the profile is below that of its start
by more than `inner`. -/
theorem scanBackward_eq_some_iff : p.scanBackward inner n = some j ↔
    LastBelow p.toList (depthAt p.toList n - inner) n j := by
  induction n generalizing inner with
  | zero =>
    simp only [scanBackward, reduceCtorEq, false_iff]
    rintro ⟨hj, -⟩
    omega
  | succ n ih =>
    have hd := depthAt_succ p.toList n
    rw [scanBackward.eq_def]
    simp only [instr?_eq]
    rcases weight_cases (instrAt p.toList n) with ⟨ho, hw⟩ | ⟨hc, hw⟩ | ⟨⟨ho, hc⟩, hw⟩
    · rw [ho]
      cases inner with
      | zero => rw [lastBelow_self (by omega) (by omega), Option.some.injEq]
      | succ inner =>
        dsimp only
        rw [lastBelow_succ (by omega) (by omega), ih]
        congr! 1
        push_cast
        omega
    · rw [hc]
      dsimp only
      rw [lastBelow_succ (by omega) (by omega), ih]
      congr! 1
      push_cast
      omega
    · have hplain : depthAt p.toList (n + 1) - (inner : Int) = depthAt p.toList n - inner := by omega
      rw [lastBelow_succ (by omega) (by omega), hplain, ← ih]
      split <;> simp_all

/-- **The partner of a `]`** is the `[` since which the text before the `]` is balanced. -/
theorem loopStart?_eq_some_iff : p.loopStart? n = some j ↔
    j < n ∧ instrAt p.toList j = some .loopStart ∧ Balanced (p.toList.extract (j + 1) n) := by
  rw [loopStart?, scanBackward_eq_some_iff, Nat.cast_zero, sub_zero]
  have hj := depthAt_succ p.toList j
  constructor
  · rintro ⟨hjn, hd, hk⟩
    have hjj := hk (j + 1) (by omega) (by omega)
    rcases weight_cases (instrAt p.toList j) with ⟨ho, hw⟩ | ⟨-, hw⟩ | ⟨-, hw⟩
    · -- the profile was lower by one at `j`, and at `j + 1` it is what it is at `n`
      have hn := hk n hjn le_rfl
      have hup : depthAt p.toList n = depthAt p.toList (j + 1) := by omega
      refine ⟨hjn, ho, (balanced_extract_iff hjn).mpr ⟨fun k hjk hkn => ?_, hup⟩⟩
      rw [← hup]
      exact hk k hjk hkn
    · omega
    · omega
  · rintro ⟨hjn, ho, hb⟩
    have hjn : j + 1 ≤ n := hjn
    obtain ⟨hk, he⟩ := (balanced_extract_iff hjn).mp hb
    rw [ho, Instr.weight] at hj
    refine ⟨hjn, by omega, fun k hjk hkn => ?_⟩
    rw [he]
    exact hk k hjk hkn

/-- Forward or backward, what is found is matched. -/
lemma loopStart?_eq_some_iff_matched (h : instrAt p.toList j = some .loopEnd) :
    p.loopStart? j = some i ↔ Matched p.toList i j := by
  rw [loopStart?_eq_some_iff]
  constructor
  · rintro ⟨hij, ho, hb⟩
    exact ⟨hij, ho, h, hb⟩
  · rintro ⟨hij, ho, -, hb⟩
    exact ⟨hij, ho, hb⟩

end Program

/-! ### Matched brackets -/

/-- **Matched pairs do not cross**: of two, the later one lies behind the earlier one or within. -/
theorem Matched.within_or_apart (h : Matched t i j) (h' : Matched t i' j') (hlt : i < i') :
    j < i' ∨ j' < j := by
  obtain ⟨hij, ho, hc, hk, he⟩ := matched_iff.mp h
  obtain ⟨hij', ho', hc', hk', he'⟩ := matched_iff.mp h'
  by_contra! hcross
  obtain ⟨hle, hle'⟩ := hcross
  have hup := hk i' hlt hle
  rcases Nat.eq_or_lt_of_le hle' with rfl | hlt'
  · -- the profile would be back at two different heights
    omega
  · have hne : i' ≠ j := by
      rintro rfl
      rw [hc] at ho'
      cases ho'
    have := hk' (j + 1) (by omega) hlt'
    omega

/-- Every `[` has its partner iff the profile is nowhere below its end. -/
lemma forall_not_unmatchedOpening_iff :
    (∀ i, ¬ UnmatchedOpening t i) ↔ ∀ k, k ≤ t.length → height t ≤ depthAt t k := by
  constructor
  · intro h k hk
    by_contra! hlow
    -- the last place that is lower than the end is that of a `[` above which the profile stays
    have hspec := Nat.findGreatest_spec (P := fun k => depthAt t k < height t) hk hlow
    have hle := Nat.findGreatest_le (P := fun k => depthAt t k < height t) t.length
    have hmax := fun m (h : Nat.findGreatest (fun k => depthAt t k < height t) t.length < m) =>
      Nat.findGreatest_is_greatest (P := fun k => depthAt t k < height t) (n := t.length) h
    generalize Nat.findGreatest (fun k => depthAt t k < height t) t.length = i at hspec hle hmax
    have habove (m : Nat) (him : i < m) : height t ≤ depthAt t m := by
      by_cases hm : m ≤ t.length
      · exact not_lt.mp (hmax m him hm)
      · rw [depthAt_of_length_le (by omega)]
    have hi := depthAt_succ t i
    have hi' := habove (i + 1) (by omega)
    rcases weight_cases (instrAt t i) with ⟨ho, hw⟩ | ⟨-, hw⟩ | ⟨-, hw⟩
    · refine h i (unmatchedOpening_iff.mpr ⟨ho, fun m him => ?_⟩)
      have := habove m him
      omega
    · omega
    · omega
  · intro h i hi
    obtain ⟨ho, hk⟩ := unmatchedOpening_iff.mp hi
    have hlt := lt_of_instrAt ho
    have hend := hk t.length hlt
    rw [depthAt_of_length_le le_rfl] at hend
    have := h i (by omega)
    omega

/-- **A text is balanced** iff every bracket of it has its partner. -/
theorem balanced_iff_forall_matched : Balanced t ↔
    (∀ i, instrAt t i = some .loopStart → ∃ j, Matched t i j) ∧
      ∀ j, instrAt t j = some .loopEnd → ∃ i, Matched t i j := by
  have hopening : (∀ i, instrAt t i = some .loopStart → ∃ j, Matched t i j) ↔
      ∀ i, ¬ UnmatchedOpening t i := by
    refine forall_congr' fun i => ?_
    rw [UnmatchedOpening, not_and, not_forall_not]
  have hclosing : (∀ j, instrAt t j = some .loopEnd → ∃ i, Matched t i j) ↔
      ∀ j, ¬ UnmatchedClosing t j := by
    refine forall_congr' fun j => ?_
    rw [UnmatchedClosing, not_and, not_forall_not]
  rw [hopening, hclosing, forall_not_unmatchedOpening_iff, forall_not_unmatchedClosing_iff,
    balanced_iff_depthAt]
  constructor
  · rintro ⟨hn, hc⟩
    refine ⟨fun k _ => ?_, hn⟩
    rw [hc]
    exact hn k
  · rintro ⟨hend, hn⟩
    have hstart := hend 0 (Nat.zero_le _)
    have hpos := hn t.length
    rw [depthAt_zero] at hstart
    rw [depthAt_of_length_le le_rfl] at hpos
    exact ⟨hn, by omega⟩

/-! ### Both searches -/

namespace Program

variable {p : Program}

/-- A `[` and the `]` that the search from there finds. -/
structure Pairs (p : Program) (i j : Nat) : Prop where
  opening : p.bytes[i]? = some Instr.loopStart.toByte
  closing : p.bytes[j]? = some Instr.loopEnd.toByte
  found : p.partner i .forward = .ok (some j)

lemma instrAt_eq_some_iff {a : Instr} :
    instrAt p.toList i = some a ↔ p.bytes[i]? = some a.toByte := by
  rw [instrAt, toList, Array.getElem?_toList, Option.bind_eq_some_iff]
  simp [Instr.ofByte?_eq_some_iff]

lemma partner_forward (p : Program) (i : Nat) : p.partner i .forward = .ok (p.loopEnd? i) := rfl

lemma partner_backward_of_le (h : j ≤ p.size) : p.partner j .backward = .ok (p.loopStart? j) :=
  if_pos h

lemma partner_forward_iff_matched (h : p.bytes[i]? = some Instr.loopStart.toByte) :
    p.partner i .forward = .ok (some j) ↔ Matched p.toList i j := by
  rw [partner_forward, Except.ok.injEq,
    loopEnd?_eq_some_iff_matched (instrAt_eq_some_iff.mpr h)]

lemma partner_backward_iff_matched (h : p.bytes[j]? = some Instr.loopEnd.toByte) :
    p.partner j .backward = .ok (some i) ↔ Matched p.toList i j := by
  obtain ⟨hj, -⟩ := Array.getElem?_eq_some_iff.mp h
  rw [partner_backward_of_le (Nat.le_of_lt hj), Except.ok.injEq,
    loopStart?_eq_some_iff_matched (instrAt_eq_some_iff.mpr h)]

lemma pairs_iff_matched : p.Pairs i j ↔ Matched p.toList i j := by
  constructor
  · rintro ⟨ho, -, hfound⟩
    exact (partner_forward_iff_matched ho).mp hfound
  · intro h
    have ho := instrAt_eq_some_iff.mp h.opening
    exact ⟨ho, instrAt_eq_some_iff.mp h.closing, (partner_forward_iff_matched ho).mpr h⟩

/-- **Partners nest**, in a text with whatever brackets. A `[` finds the `]` that finds it; of two pairs
the later one lies behind the earlier one or within; and the text is balanced iff every bracket of it
finds a partner. -/
theorem partners_nest (p : Program) :
    (∀ i j, p.bytes[i]? = some Instr.loopStart.toByte → p.bytes[j]? = some Instr.loopEnd.toByte →
      (p.partner i .forward = .ok (some j) ↔ p.partner j .backward = .ok (some i))) ∧
    (∀ i j i' j', p.Pairs i j → p.Pairs i' j' → i < i' → j < i' ∨ j' < j) ∧
    (Balanced p.toList ↔
      (∀ i, p.bytes[i]? = some Instr.loopStart.toByte →
        ∃ j, p.partner i .forward = .ok (some j)) ∧
      ∀ j, p.bytes[j]? = some Instr.loopEnd.toByte →
        ∃ i, p.partner j .backward = .ok (some i)) := by
  refine ⟨?_, ?_, ?_⟩
  · intro i j ho hc
    rw [partner_forward_iff_matched ho, partner_backward_iff_matched hc]
  · intro i j i' j' h h' hlt
    rw [pairs_iff_matched] at h h'
    exact h.within_or_apart h' hlt
  · rw [balanced_iff_forall_matched]
    apply and_congr
    · refine forall_congr' fun i => ?_
      rw [instrAt_eq_some_iff]
      refine forall_congr' fun ho => exists_congr fun j => ?_
      rw [partner_forward_iff_matched ho]
    · refine forall_congr' fun j => ?_
      rw [instrAt_eq_some_iff]
      refine forall_congr' fun hc => exists_congr fun i => ?_
      rw [partner_backward_iff_matched hc]

/-- In `][[]][` the brackets at the two ends are left alone, and of the two pairs in between one lies
within the other. -/
theorem partners_nest_stray :
    let p : Program := .ofList [0x5d, 0x5b, 0x5b, 0x5d, 0x5d, 0x5b]
    p.partner 4 .backward = .ok (some 1) ∧ p.Pairs 1 4 ∧ p.Pairs 2 3 ∧ (4 < 2 ∨ 3 < 4) ∧
      ¬ Balanced p.toList := by
  intro p
  obtain ⟨hinverse, hnest, hbalanced⟩ := partners_nest p
  have houter : p.Pairs 1 4 := ⟨rfl, rfl, by decide +kernel⟩
  have hinner : p.Pairs 2 3 := ⟨rfl, rfl, by decide +kernel⟩
  refine ⟨(hinverse 1 4 rfl rfl).mp houter.found, houter, hinner,
    hnest 1 4 2 3 houter hinner (by decide), fun hb => ?_⟩
  obtain ⟨j, hj⟩ := (hbalanced.mp hb).1 5 rfl
  have hnone : p.partner 5 .forward = .ok none := by decide +kernel
  rw [hnone] at hj
  cases hj

end Program

end Brainfuck
