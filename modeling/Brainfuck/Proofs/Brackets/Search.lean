import Brainfuck.Proofs.Brackets.Open

/-!
What the search for a partner finds, in either direction. Forward it looks for the byte with which
the profile first falls below its start (`scanForward_eq_some_iff`), so it passes over balanced text
(`scanForward_of_balanced`) and finds the `]` up to which the text is balanced
(`loopEnd?_eq_some_iff`); backward it reads the stack of the open loops from its top down
(`scanBackward_eq`).
-/

namespace Brainfuck.Program

variable {p : Program} {i j inner n : Nat} {s : List Nat}

lemma size_eq (p : Program) : p.size = p.toList.length := by
  simp [size, toList]

lemma instr?_of_lt (h : i < p.bytes.size) : p.instr? i = Instr.ofByte? p.bytes[i] := by
  simp [instr?, h]

lemma instr?_of_size_le (h : p.size ≤ i) : p.instr? i = none := by
  have h : p.bytes.size ≤ i := h
  simp [instr?, h]

lemma lt_of_instr? {a : Instr} (h : p.instr? i = some a) : i < p.bytes.size := by
  by_contra hi
  rw [instr?_of_size_le (Nat.le_of_not_lt hi)] at h
  cases h

/-! ### One byte of the forward search -/

lemma scanForward_loopStart (h : p.instr? i = some .loopStart) :
    p.scanForward inner i = p.scanForward (inner + 1) (i + 1) := by
  have hi := lt_of_instr? h
  rw [instr?_of_lt hi] at h
  rw [scanForward.eq_def, dif_pos hi]
  simp only [h]

lemma scanForward_loopEnd (h : p.instr? i = some .loopEnd) :
    p.scanForward inner i = if inner = 0 then some i else p.scanForward (inner - 1) (i + 1) := by
  have hi := lt_of_instr? h
  rw [instr?_of_lt hi] at h
  rw [scanForward.eq_def, dif_pos hi]
  cases inner <;> simp [h]

lemma scanForward_plain (hi : i < p.size) (ho : p.instr? i ≠ some .loopStart)
    (hc : p.instr? i ≠ some .loopEnd) : p.scanForward inner i = p.scanForward inner (i + 1) := by
  have hi : i < p.bytes.size := hi
  rw [instr?_of_lt hi] at ho hc
  rw [scanForward.eq_def, dif_pos hi]
  split <;> simp_all

lemma scanForward_of_size_le (hi : p.size ≤ i) : p.scanForward inner i = none := by
  have hi : ¬ i < p.bytes.size := Nat.not_lt.mpr hi
  rw [scanForward.eq_def, dif_neg hi]

/-! ### Forward -/

/-- `j` is the byte with which the profile, at or above `d` from `i` on, first falls below `d`. -/
def FirstBelow (t : List UInt8) (d : Int) (i j : Nat) : Prop :=
  i ≤ j ∧ j < t.length ∧ depthAt t (j + 1) < d ∧ ∀ k, i ≤ k → k ≤ j → d ≤ depthAt t k

lemma firstBelow_succ {t : List UInt8} {d : Int} (h : d ≤ depthAt t i)
    (h' : d ≤ depthAt t (i + 1)) : FirstBelow t d i j ↔ FirstBelow t d (i + 1) j := by
  constructor
  · rintro ⟨hij, hj, hd, hk⟩
    refine ⟨?_, hj, hd, fun k hik hkj => hk k (by omega) hkj⟩
    rcases Nat.eq_or_lt_of_le hij with rfl | hij
    · omega
    · exact hij
  · rintro ⟨hij, hj, hd, hk⟩
    refine ⟨by omega, hj, hd, fun k hik hkj => ?_⟩
    rcases Nat.eq_or_lt_of_le hik with rfl | hik
    · exact h
    · exact hk k hik hkj

lemma firstBelow_self {t : List UInt8} {d : Int} (hi : i < t.length) (h : d ≤ depthAt t i)
    (h' : depthAt t (i + 1) < d) : FirstBelow t d i j ↔ i = j := by
  constructor
  · rintro ⟨hij, hj, hd, hk⟩
    by_contra hne
    have := hk (i + 1) (by omega) (by omega)
    omega
  · rintro rfl
    refine ⟨le_rfl, hi, h', fun k hik hki => ?_⟩
    obtain rfl : i = k := by omega
    exact h

/-- **The forward search** stops where the profile first falls below its start by more than
`inner`. -/
theorem scanForward_eq_some_iff : p.scanForward inner i = some j ↔
    FirstBelow p.toList (depthAt p.toList i - inner) i j := by
  fun_induction p.scanForward inner i with
  | case1 inner i h ho ih =>
    have hd := depthAt_succ p.toList i
    rw [← instr?_eq, instr?_of_lt h, ho, Instr.weight] at hd
    rw [firstBelow_succ (by omega) (by omega), ih]
    congr! 1
    push_cast
    omega
  | case2 i h hc =>
    have hd := depthAt_succ p.toList i
    rw [← instr?_eq, instr?_of_lt h, hc, Instr.weight] at hd
    rw [firstBelow_self (by rwa [← size_eq]) (by omega) (by omega), Option.some.injEq]
  | case3 i h hc inner ih =>
    have hd := depthAt_succ p.toList i
    rw [← instr?_eq, instr?_of_lt h, hc, Instr.weight] at hd
    rw [firstBelow_succ (by omega) (by omega), ih]
    congr! 1
    push_cast
    omega
  | case4 inner i h ho hc ih =>
    have hd := depthAt_succ p.toList i
    rw [← instr?_eq, instr?_of_lt h] at hd
    rcases weight_cases (Instr.ofByte? p.bytes[i]) with ⟨ho', -⟩ | ⟨hc', -⟩ | ⟨-, hw⟩
    · exact absurd ho' ho
    · exact absurd hc' hc
    rw [firstBelow_succ (by omega) (by omega), ih]
    congr! 1
    omega
  | case5 inner i h =>
    have hi : p.toList.length ≤ i := by
      rw [← size_eq]
      exact Nat.le_of_not_lt h
    simp only [reduceCtorEq, false_iff]
    rintro ⟨hij, hj, -⟩
    omega

/-- A stretch on which the profile does not fall below `d` makes no difference. -/
lemma firstBelow_of_le {t : List UInt8} {d : Int} (hij : i ≤ j)
    (h : ∀ k, i ≤ k → k ≤ j → d ≤ depthAt t k) : FirstBelow t d i n ↔ FirstBelow t d j n := by
  constructor
  · rintro ⟨hin, hn, hd, hk⟩
    refine ⟨?_, hn, hd, fun k hjk hkn => hk k (by omega) hkn⟩
    by_contra hnj
    have := h (n + 1) (by omega) (by omega)
    omega
  · rintro ⟨hjn, hn, hd, hk⟩
    refine ⟨by omega, hn, hd, fun k hik hkn => ?_⟩
    by_cases hkj : k ≤ j
    · exact h k hik hkj
    · exact hk k (by omega) hkn

/-- **Balanced text is nothing to the forward search.** -/
theorem scanForward_of_balanced (hij : i ≤ j) (hb : Balanced (p.toList.extract i j)) :
    p.scanForward inner i = p.scanForward inner j := by
  obtain ⟨hn, he⟩ := (balanced_extract_iff hij).mp hb
  ext n
  rw [scanForward_eq_some_iff, scanForward_eq_some_iff, he]
  refine firstBelow_of_le hij fun k hik hkj => ?_
  have := hn k hik hkj
  omega

/-- **The partner of a `[`** is the `]` up to which the text behind the `[` is balanced. -/
theorem loopEnd?_eq_some_iff : p.loopEnd? i = some j ↔
    i < j ∧ instrAt p.toList j = some .loopEnd ∧ Balanced (p.toList.extract (i + 1) j) := by
  rw [loopEnd?, scanForward_eq_some_iff]
  have hj := depthAt_succ p.toList j
  constructor
  · rintro ⟨hij, hlen, hd, hk⟩
    have hjj := hk j hij le_rfl
    simp only [Nat.cast_zero, sub_zero] at hd hk hjj
    have hij : i + 1 ≤ j := hij
    rcases weight_cases (instrAt p.toList j) with ⟨-, hw⟩ | ⟨hc, hw⟩ | ⟨-, hw⟩
    · omega
    · exact ⟨hij, hc, (balanced_extract_iff hij).mpr ⟨hk, by omega⟩⟩
    · omega
  · rintro ⟨hij, hc, hb⟩
    have hij : i + 1 ≤ j := hij
    obtain ⟨hk, he⟩ := (balanced_extract_iff hij).mp hb
    rw [hc, Instr.weight] at hj
    refine ⟨hij, lt_of_instrAt hc, by simp only [Nat.cast_zero]; omega, ?_⟩
    simpa using hk

lemma loopEnd?_eq_some_iff_matched (h : instrAt p.toList i = some .loopStart) :
    p.loopEnd? i = some j ↔ Matched p.toList i j := by
  rw [loopEnd?_eq_some_iff]
  exact ⟨fun ⟨hij, hc, hb⟩ => ⟨hij, h, hc, hb⟩, fun ⟨hij, _, hc, hb⟩ => ⟨hij, hc, hb⟩⟩

/-- A `[` at which the search fails is unmatched. -/
theorem unmatchedOpening_of_loopEnd?_eq_none (h : instrAt p.toList i = some .loopStart)
    (hn : p.loopEnd? i = none) : UnmatchedOpening p.toList i := by
  refine ⟨h, fun j hj => ?_⟩
  rw [(loopEnd?_eq_some_iff_matched h).mpr hj] at hn
  cases hn

/-! ### Backward -/

/-- **The backward search** finds the open loops, the innermost first. -/
theorem scanBackward_eq (h : openLoops p.toList n = some s) :
    p.scanBackward inner n = s.reverse[inner]? := by
  induction n generalizing s inner with
  | zero =>
    cases h
    simp [scanBackward]
  | succ n ih =>
    rw [scanBackward.eq_def]
    simp only [instr?_eq]
    rcases openLoops_succ_cases h with ⟨s', ho, hs, rfl⟩ | ⟨i, hc, hs⟩ | ⟨ho, hc, hs⟩
    · rw [ho]
      cases inner with
      | zero => simp
      | succ inner => simp [ih hs]
    · rw [hc]
      simp [ih hs]
    · rw [← ih hs]
      split <;> simp_all

/-- The partner of a `]` is the innermost loop that is open there. -/
theorem loopStart?_eq (h : openLoops p.toList n = some s) : p.loopStart? n = s.getLast? := by
  rw [loopStart?, scanBackward_eq h, List.getLast?_eq_head?_reverse, List.head?_eq_getElem?]

end Brainfuck.Program
