import Brainfuck.Proofs.Brackets.Balance

/-!
The loops that are open at a place of a text, as a stack that is kept while the text is read
(`openLoops`).

* Read at a place that has no unmatched `]` before it, the stack holds the unmatched `[` before
  that place, in increasing order (`openLoops_eq_unmatchedOpenings`).
* Below its top it is the stack at the `[` on the top, and what stands since that `[` is balanced
  (`openLoops_concat`); a balanced stretch leaves it as it is (`openLoops_of_balanced`).
-/

namespace Brainfuck

/-- The positions of the `[` that are open after the first `n` bytes, the innermost last; none once
a `]` has closed a loop that was not open. -/
def openLoops (t : List UInt8) : Nat → Option (List Nat)
  | 0 => some []
  | n + 1 => (openLoops t n).bind fun s =>
    match instrAt t n with
    | some .loopStart => some (s ++ [n])
    | some .loopEnd => if s = [] then none else some s.dropLast
    | _ => some s

variable {t : List UInt8} {i j k n : Nat} {s : List Nat}

instance : DecidablePred (UnmatchedOpening t) := fun i =>
  decidable_of_iff (instrAt t i = some .loopStart ∧
      ∀ k, k ≤ t.length → i < k → depthAt t i < depthAt t k) <| by
    rw [unmatchedOpening_iff]
    refine and_congr_right fun ho => ⟨fun h k hik => ?_, fun h k _ hik => h k hik⟩
    have hi := lt_of_instrAt ho
    by_cases hk : k ≤ t.length
    · exact h k hk hik
    · have := h t.length le_rfl hi
      rwa [depthAt_of_length_le le_rfl, ← depthAt_of_length_le (n := k) (by omega)] at this

/-- The positions of the unmatched `[` of a text, in increasing order. -/
def unmatchedOpenings (t : List UInt8) : List Nat :=
  (List.range t.length).filter fun i => UnmatchedOpening t i

/-! ### One byte -/

lemma openLoops_loopStart (hs : openLoops t n = some s) (h : instrAt t n = some .loopStart) :
    openLoops t (n + 1) = some (s ++ [n]) := by
  simp [openLoops, hs, h]

lemma openLoops_loopEnd (hs : openLoops t n = some (s ++ [i])) (h : instrAt t n = some .loopEnd) :
    openLoops t (n + 1) = some s := by
  simp [openLoops, hs, h]

lemma openLoops_plain (ho : instrAt t n ≠ some .loopStart) (hc : instrAt t n ≠ some .loopEnd) :
    openLoops t (n + 1) = openLoops t n := by
  cases hs : openLoops t n with
  | none => simp [openLoops, hs]
  | some s => simp only [openLoops, hs, Option.bind_some]

/-- What the byte at `n` has done to the stack. -/
lemma openLoops_succ_cases (h : openLoops t (n + 1) = some s) :
    (∃ s', instrAt t n = some .loopStart ∧ openLoops t n = some s' ∧ s = s' ++ [n]) ∨
    (∃ i, instrAt t n = some .loopEnd ∧ openLoops t n = some (s ++ [i])) ∨
    (instrAt t n ≠ some .loopStart ∧ instrAt t n ≠ some .loopEnd ∧ openLoops t n = some s) := by
  rcases weight_cases (instrAt t n) with ⟨ho, -⟩ | ⟨hc, -⟩ | ⟨⟨ho, hc⟩, -⟩
  · obtain ⟨s', hs, h⟩ := Option.bind_eq_some_iff.mp h
    rw [ho] at h
    exact Or.inl ⟨s', ho, hs, (Option.some.inj h).symm⟩
  · obtain ⟨s', hs, h⟩ := Option.bind_eq_some_iff.mp h
    rw [hc] at h
    simp only [Option.ite_none_left_eq_some, Option.some.injEq] at h
    obtain ⟨hne, rfl⟩ := h
    refine Or.inr (Or.inl ⟨s'.getLast hne, hc, ?_⟩)
    rw [List.dropLast_concat_getLast, hs]
  · rw [openLoops_plain ho hc] at h
    exact Or.inr (Or.inr ⟨ho, hc, h⟩)

/-- The stack is as high as the profile. -/
lemma openLoops_length (h : openLoops t n = some s) : (s.length : Int) = depthAt t n := by
  induction n generalizing s with
  | zero =>
    cases h
    rfl
  | succ n ih =>
    rw [depthAt_succ]
    rcases openLoops_succ_cases h with ⟨s', ho, hs, rfl⟩ | ⟨i, hc, hs⟩ | ⟨ho, hc, hs⟩
    · rw [ho, ← ih hs]
      simp [Instr.weight]
    · rw [hc, ← ih hs]
      simp [Instr.weight]
    · rw [ih hs]
      rcases weight_cases (instrAt t n) with ⟨ho', -⟩ | ⟨hc', -⟩ | ⟨-, hw⟩
      · exact absurd ho' ho
      · exact absurd hc' hc
      · omega

lemma openLoops_isSome_of_le (h : (openLoops t n).isSome) (hk : k ≤ n) :
    (openLoops t k).isSome := by
  induction n with
  | zero =>
    obtain rfl : k = 0 := by omega
    exact h
  | succ n ih =>
    rcases Nat.eq_or_lt_of_le hk with rfl | hk
    · exact h
    · refine ih ?_ (by omega)
      obtain ⟨s, hs⟩ := Option.isSome_iff_exists.mp h
      rcases openLoops_succ_cases hs with ⟨s', -, hs', -⟩ | ⟨i, -, hs'⟩ | ⟨-, -, hs'⟩ <;>
        simp [hs']

/-- Where there is a stack, no `]` has been unmatched. -/
theorem depthAt_nonneg_of_openLoops (h : openLoops t n = some s) (hk : k ≤ n) :
    0 ≤ depthAt t k := by
  have hn : (openLoops t n).isSome := by simp [h]
  obtain ⟨s', hs'⟩ := Option.isSome_iff_exists.mp (openLoops_isSome_of_le hn hk)
  have := openLoops_length hs'
  omega

/-! ### Stretches -/

/-- While the profile stays above the beginning of a stretch, the stack of that place stays. -/
lemma openLoops_append (hs : openLoops t i = some s) (hij : i ≤ j)
    (hn : ∀ k, i ≤ k → k ≤ j → depthAt t i ≤ depthAt t k) :
    ∃ u, openLoops t j = some (s ++ u) := by
  induction j, hij using Nat.le_induction with
  | base => exact ⟨[], by simpa using hs⟩
  | succ j hij ih =>
    obtain ⟨u, hu⟩ := ih fun k hik hkj => hn k hik (by omega)
    have hlen := openLoops_length hu
    have hlen0 := openLoops_length hs
    have hd := hn (j + 1) (by omega) le_rfl
    rw [depthAt_succ] at hd
    rw [List.length_append] at hlen
    rcases weight_cases (instrAt t j) with ⟨ho, -⟩ | ⟨hc, hw⟩ | ⟨⟨ho, hc⟩, -⟩
    · exact ⟨u ++ [j], by rw [openLoops_loopStart hu ho, List.append_assoc]⟩
    · have hne : u ≠ [] := by
        rintro rfl
        simp at hlen
        omega
      refine ⟨u.dropLast, openLoops_loopEnd (i := u.getLast hne) ?_ hc⟩
      rw [hu, List.append_assoc, List.dropLast_concat_getLast]
    · exact ⟨u, by rw [openLoops_plain ho hc, hu]⟩

/-- **A balanced stretch leaves the stack as it is.** -/
theorem openLoops_of_balanced (hs : openLoops t i = some s) (hij : i ≤ j)
    (hb : Balanced (t.extract i j)) : openLoops t j = some s := by
  obtain ⟨hn, he⟩ := (balanced_extract_iff hij).mp hb
  obtain ⟨u, hu⟩ := openLoops_append hs hij hn
  have hlen := openLoops_length hu
  have hlen0 := openLoops_length hs
  obtain rfl : u = [] := by
    rw [List.length_append] at hlen
    exact List.eq_nil_of_length_eq_zero (by omega)
  simpa using hu

/-- **The top of the stack** is the `[` since which the text is balanced, and below it is the stack
at that `[`. -/
theorem openLoops_concat (h : openLoops t n = some (s ++ [i])) :
    i < n ∧ instrAt t i = some .loopStart ∧ openLoops t i = some s ∧
      (∀ k, i < k → k ≤ n → depthAt t i < depthAt t k) ∧ depthAt t n = depthAt t i + 1 := by
  induction n using Nat.strong_induction_on generalizing s i with
  | _ n ih =>
    rcases n with _ | n
    · simp [openLoops] at h
    have hd := depthAt_succ t n
    rcases openLoops_succ_cases h with ⟨s', ho, hs, hcat⟩ | ⟨l, hc, hs⟩ | ⟨ho, hc, hs⟩
    · obtain ⟨rfl, hi⟩ := List.append_inj' hcat rfl
      obtain rfl : i = n := by simpa using hi
      rw [ho] at hd
      simp only [Instr.weight] at hd
      refine ⟨by omega, ho, hs, fun k hik hkn => ?_, hd⟩
      obtain rfl : k = i + 1 := by omega
      omega
    · -- the `]` closes the loop at `l`, and the loop at `i` was the next one around it
      obtain ⟨hln, hlo, hls, hlk, hld⟩ := ih n (by omega) hs
      obtain ⟨hil, hio, his, hik, hid⟩ := ih l (by omega) hls
      rw [hc] at hd
      simp only [Instr.weight] at hd
      refine ⟨by omega, hio, his, fun k hk hkn => ?_, by omega⟩
      by_cases hkl : k ≤ l
      · exact hik k hk hkl
      by_cases hkn' : k ≤ n
      · have := hlk k (by omega) hkn'
        omega
      · obtain rfl : k = n + 1 := by omega
        omega
    · obtain ⟨hin, hio, his, hik, hid⟩ := ih n (by omega) hs
      rcases weight_cases (instrAt t n) with ⟨ho', -⟩ | ⟨hc', -⟩ | ⟨-, hw⟩
      · exact absurd ho' ho
      · exact absurd hc' hc
      refine ⟨by omega, hio, his, fun k hk hkn => ?_, by omega⟩
      by_cases hkn' : k ≤ n
      · exact hik k hk hkn'
      · obtain rfl : k = n + 1 := by omega
        have := hik n (by omega) le_rfl
        omega

/-- Just behind the `[` on its top the stack was the same. -/
lemma openLoops_top (h : openLoops t n = some (s ++ [i])) :
    openLoops t (i + 1) = some (s ++ [i]) := by
  obtain ⟨-, ho, hs, -, -⟩ := openLoops_concat h
  exact openLoops_loopStart hs ho

lemma instrAt_of_mem_openLoops (h : openLoops t n = some s) (hi : i ∈ s) :
    i < n ∧ instrAt t i = some .loopStart := by
  induction s using List.reverseRecOn generalizing n with
  | nil => simp at hi
  | append_singleton s l ih =>
    obtain ⟨hln, ho, hs, -, -⟩ := openLoops_concat h
    rcases List.mem_append.mp hi with hi | hi
    · obtain ⟨hil, hio⟩ := ih hs hi
      exact ⟨by omega, hio⟩
    · obtain rfl : i = l := by simpa using hi
      exact ⟨hln, ho⟩

/-! ### The stack and the unmatched brackets -/

lemma unmatchedOpening_take_iff : UnmatchedOpening (t.take n) i ↔
    i < n ∧ instrAt t i = some .loopStart ∧ ∀ k, i < k → k ≤ n → depthAt t i < depthAt t k := by
  rw [unmatchedOpening_iff]
  constructor
  · rintro ⟨ho, hk⟩
    have hi := lt_of_instrAt ho
    rw [List.length_take] at hi
    rw [instrAt_take t n i (by omega)] at ho
    refine ⟨by omega, ho, fun k hik hkn => ?_⟩
    have := hk k hik
    rwa [depthAt_take, depthAt_take, min_eq_left (by omega), min_eq_left hkn] at this
  · rintro ⟨hin, ho, hk⟩
    refine ⟨by rwa [instrAt_take t n i hin], fun k hik => ?_⟩
    rw [depthAt_take, depthAt_take, min_eq_left (by omega)]
    exact hk _ (by omega) (by omega)

/-- **The stack holds the unmatched `[`** of the text read so far. -/
theorem openLoops_eq_unmatchedOpenings (h : openLoops t n = some s) (hn : n ≤ t.length) :
    s = unmatchedOpenings (t.take n) := by
  induction s using List.reverseRecOn generalizing n with
  | nil =>
    have hlen := openLoops_length h
    symm
    refine List.filter_eq_nil_iff.mpr fun i hi => ?_
    rw [decide_eq_true_iff, unmatchedOpening_take_iff]
    rintro ⟨hin, -, hk⟩
    have h0 := depthAt_nonneg_of_openLoops h (k := i) (by omega)
    have := hk n hin le_rfl
    simp at hlen
    omega
  | append_singleton s l ih =>
    obtain ⟨hln, ho, hs, hlk, hld⟩ := openLoops_concat h
    rw [ih hs (by omega)]
    -- up to `l` the same brackets are unmatched, `l` is, and behind `l` none is
    have hrange : List.range n =
        List.range l ++ [l] ++ (List.range (n - (l + 1))).map (l + 1 + ·) := by
      rw [← List.range_succ, ← List.range_add]
      congr 1
      omega
    have hleft : (List.range l).filter (fun i => UnmatchedOpening (t.take l) i) =
        (List.range l).filter (fun i => UnmatchedOpening (t.take n) i) := by
      refine List.filter_congr fun i hi => ?_
      rw [decide_eq_decide, unmatchedOpening_take_iff, unmatchedOpening_take_iff]
      have hil := List.mem_range.mp hi
      constructor
      · rintro ⟨-, hio, hik⟩
        refine ⟨by omega, hio, fun k hk hkn => ?_⟩
        by_cases hkl : k ≤ l
        · exact hik k hk hkl
        · have h1 := hik l hil le_rfl
          have h2 := hlk k (by omega) hkn
          omega
      · rintro ⟨-, hio, hik⟩
        exact ⟨hil, hio, fun k hk hkl => hik k hk (by omega)⟩
    have hmid : [l].filter (fun i => UnmatchedOpening (t.take n) i) = [l] := by
      have hl := unmatchedOpening_take_iff.mpr ⟨hln, ho, hlk⟩
      simp [hl]
    have hright : ((List.range (n - (l + 1))).map (l + 1 + ·)).filter
        (fun i => UnmatchedOpening (t.take n) i) = [] := by
      refine List.filter_eq_nil_iff.mpr fun i hi => ?_
      obtain ⟨d, hd, rfl⟩ := List.mem_map.mp hi
      have hd := List.mem_range.mp hd
      rw [decide_eq_true_iff, unmatchedOpening_take_iff]
      rintro ⟨hin, -, hik⟩
      have h1 := hik n hin le_rfl
      have h2 := hlk (l + 1 + d) (by omega) (by omega)
      omega
    unfold unmatchedOpenings
    rw [List.length_take, List.length_take, min_eq_left hn, min_eq_left (by omega), hrange,
      List.filter_append, List.filter_append, hleft, hmid, hright, List.append_nil]

/-- Where there is a stack, every `]` before it has its partner. -/
theorem not_unmatchedClosing_of_openLoops (h : openLoops t n = some s) (j : Nat) :
    ¬ UnmatchedClosing (t.take n) j := by
  refine forall_not_unmatchedClosing_iff.mpr (fun k => ?_) j
  rw [depthAt_take]
  exact depthAt_nonneg_of_openLoops h (by omega)

/-- An empty stack is what a balanced text leaves. -/
theorem openLoops_eq_nil_iff : openLoops t n = some [] ↔ Balanced (t.take n) := by
  constructor
  · intro h
    have hlen := openLoops_length h
    exact balanced_take_iff.mpr ⟨fun k hk => depthAt_nonneg_of_openLoops h hk, by simpa using hlen.symm⟩
  · intro h
    exact openLoops_of_balanced (i := 0) rfl (Nat.zero_le n)
      (by simpa [List.extract_eq_take_drop] using h)

end Brainfuck
