import Brainfuck.Program
import Mathlib.Data.List.Basic
import Mathlib.Tactic

/-!
How the brackets of a text nest. Everything is read off the *profile* of the text: `depthAt t n` is
the number of loops that begin in its first `n` bytes less the number of loops that end there.

* A stretch of text is balanced iff the profile does not fall below its beginning on the way and is
  back there at its end (`balanced_extract_iff`).
* A `[` has no partner iff the profile stays above it for good (`unmatchedOpening_iff`), and a `]`
  has none iff it takes the profile lower than ever before (`unmatchedClosing_iff`).
-/

namespace Brainfuck

/-- The instruction at a position of a text, if there is one. -/
def instrAt (t : List UInt8) (i : Nat) : Option Instr := t[i]?.bind Instr.ofByte?

/-- What an instruction adds to the number of open loops. -/
def Instr.weight : Option Instr → Int
  | some .loopStart => 1
  | some .loopEnd => -1
  | _ => 0

/-- The number of `[` in a text less the number of `]`. -/
def height (t : List UInt8) : Int := (t.map fun b => Instr.weight (Instr.ofByte? b)).sum

/-- The profile of a text: the height of its first `n` bytes. -/
def depthAt (t : List UInt8) (n : Nat) : Int := height (t.take n)

/-- The brackets of a text nest: no beginning of it closes more loops than it opens, and in the end
all are closed. -/
structure Balanced (t : List UInt8) : Prop where
  nonneg : ∀ p, p <+: t → 0 ≤ height p
  closed : height t = 0

/-- The `[` at `i` and the `]` at `j` belong together: what stands between them is balanced. -/
structure Matched (t : List UInt8) (i j : Nat) : Prop where
  lt : i < j
  opening : instrAt t i = some .loopStart
  closing : instrAt t j = some .loopEnd
  inner : Balanced (t.extract (i + 1) j)

/-- A `[` stands at `i`, and no `]` belongs to it. -/
def UnmatchedOpening (t : List UInt8) (i : Nat) : Prop :=
  instrAt t i = some .loopStart ∧ ∀ j, ¬ Matched t i j

/-- A `]` stands at `j`, and no `[` belongs to it. -/
def UnmatchedClosing (t : List UInt8) (j : Nat) : Prop :=
  instrAt t j = some .loopEnd ∧ ∀ i, ¬ Matched t i j

/-- The greatest number of loops around any place of a text. -/
def nesting (t : List UInt8) : Nat := (Finset.range (t.length + 1)).sup fun n => (depthAt t n).toNat

variable {t : List UInt8} {i j k n : Nat}

/-! ### The profile -/

lemma instr?_eq (p : Program) (i : Nat) : p.instr? i = instrAt p.toList i := by
  simp [Program.instr?, Program.toList, instrAt]

lemma lt_of_instrAt {a : Instr} (h : instrAt t i = some a) : i < t.length := by
  by_contra hi
  simp [instrAt, List.getElem?_eq_none (Nat.le_of_not_lt hi)] at h

/-- A byte opens a loop, closes one, or leaves the profile as it is. -/
lemma weight_cases (a : Option Instr) :
    a = some .loopStart ∧ Instr.weight a = 1 ∨ a = some .loopEnd ∧ Instr.weight a = -1 ∨
      (a ≠ some .loopStart ∧ a ≠ some .loopEnd) ∧ Instr.weight a = 0 := by
  rcases a with _ | a
  · simp [Instr.weight]
  · cases a <;> simp [Instr.weight]

lemma height_append (s t : List UInt8) : height (s ++ t) = height s + height t := by
  simp [height]

@[simp] lemma depthAt_zero (t : List UInt8) : depthAt t 0 = 0 := rfl

lemma depthAt_succ (t : List UInt8) (n : Nat) :
    depthAt t (n + 1) = depthAt t n + Instr.weight (instrAt t n) := by
  unfold depthAt instrAt
  rw [List.take_add_one, height_append]
  cases t[n]? <;> simp [height, Instr.weight]

lemma depthAt_of_length_le (h : t.length ≤ n) : depthAt t n = height t := by
  rw [depthAt, List.take_of_length_le h]

lemma depthAt_take (t : List UInt8) (n k : Nat) : depthAt (t.take n) k = depthAt t (min k n) := by
  rw [depthAt, depthAt, List.take_take]

lemma instrAt_take (t : List UInt8) (n k : Nat) (h : k < n) :
    instrAt (t.take n) k = instrAt t k := by
  simp [instrAt, h]

lemma height_extract (t : List UInt8) (h : i ≤ j) :
    height (t.extract i j) = depthAt t j - depthAt t i := by
  have hj : t.take j = t.take i ++ t.extract i j := by
    rw [List.extract_eq_take_drop, ← List.take_add]
    congr 1
    omega
  rw [depthAt, depthAt, hj, height_append]
  ring

/-- The beginnings of a stretch are the stretches from the same place that are no longer. -/
lemma prefix_extract_iff (t p : List UInt8) (i j : Nat) (h : i ≤ j) :
    p <+: t.extract i j ↔ ∃ k, i ≤ k ∧ k ≤ j ∧ p = t.extract i k := by
  simp only [List.extract_eq_take_drop]
  constructor
  · intro hp
    refine ⟨min j (i + p.length), by omega, by omega, ?_⟩
    have hlen := hp.length_le
    rw [List.length_take] at hlen
    conv_lhs => rw [List.prefix_iff_eq_take.mp hp, List.take_take]
    congr 1
    omega
  · rintro ⟨k, hik, hkj, rfl⟩
    exact List.take_prefix_take_left (by omega)

/-! ### Balanced text -/

/-- **A stretch is balanced** iff the profile stays at or above its beginning and ends there. -/
theorem balanced_extract_iff (h : i ≤ j) : Balanced (t.extract i j) ↔
    (∀ k, i ≤ k → k ≤ j → depthAt t i ≤ depthAt t k) ∧ depthAt t j = depthAt t i := by
  constructor
  · rintro ⟨hn, hc⟩
    rw [height_extract t h] at hc
    refine ⟨fun k hik hkj => ?_, by omega⟩
    have := hn _ ((prefix_extract_iff t _ i j h).mpr ⟨k, hik, hkj, rfl⟩)
    rw [height_extract t hik] at this
    omega
  · rintro ⟨hn, hc⟩
    refine ⟨fun p hp => ?_, by rw [height_extract t h]; omega⟩
    obtain ⟨k, hik, hkj, rfl⟩ := (prefix_extract_iff t p i j h).mp hp
    rw [height_extract t hik]
    have := hn k hik hkj
    omega

theorem balanced_take_iff :
    Balanced (t.take n) ↔ (∀ k, k ≤ n → 0 ≤ depthAt t k) ∧ depthAt t n = 0 := by
  have := balanced_extract_iff (t := t) (Nat.zero_le n)
  simpa [List.extract_eq_take_drop] using this

theorem balanced_iff_depthAt : Balanced t ↔ (∀ k, 0 ≤ depthAt t k) ∧ height t = 0 := by
  have h := balanced_take_iff (t := t) (n := t.length)
  rw [List.take_length, depthAt_of_length_le le_rfl] at h
  rw [h]
  refine and_congr_left fun hc => ⟨fun hn k => ?_, fun hn k _ => hn k⟩
  by_cases hk : k ≤ t.length
  · exact hn k hk
  · rw [depthAt_of_length_le (by omega)]
    omega

instance : DecidablePred Balanced := fun t =>
  decidable_of_iff ((∀ k, k ≤ t.length → 0 ≤ depthAt t k) ∧ depthAt t t.length = 0) <| by
    rw [← balanced_take_iff, List.take_length]

lemma depthAt_le_nesting (t : List UInt8) (n : Nat) : depthAt t n ≤ nesting t := by
  have hn : depthAt t n = depthAt t (min n t.length) := by
    rw [depthAt, depthAt, ← List.take_eq_take_min]
  have := Finset.le_sup (f := fun n => (depthAt t n).toNat)
    (Finset.mem_range.mpr (show min n t.length < t.length + 1 by omega))
  rw [hn]
  exact le_trans (Int.self_le_toNat _) (by exact_mod_cast this)

/-! ### Brackets without a partner -/

lemma matched_iff : Matched t i j ↔
    i < j ∧ instrAt t i = some .loopStart ∧ instrAt t j = some .loopEnd ∧
      (∀ k, i < k → k ≤ j → depthAt t i < depthAt t k) ∧ depthAt t (j + 1) = depthAt t i := by
  constructor
  · rintro ⟨hlt, ho, hc, hin⟩
    obtain ⟨hn, he⟩ := (balanced_extract_iff (show i + 1 ≤ j from hlt)).mp hin
    have hi := depthAt_succ t i
    have hj := depthAt_succ t j
    rw [ho] at hi
    rw [hc] at hj
    simp only [Instr.weight] at hi hj
    refine ⟨hlt, ho, hc, fun k hik hkj => ?_, by omega⟩
    have := hn k hik hkj
    omega
  · rintro ⟨hlt, ho, hc, hn, he⟩
    have hi := depthAt_succ t i
    have hj := depthAt_succ t j
    rw [ho] at hi
    rw [hc] at hj
    simp only [Instr.weight] at hi hj
    have hbal := balanced_extract_iff (t := t) (show i + 1 ≤ j from hlt)
    refine ⟨hlt, ho, hc, hbal.mpr ⟨fun k hik hkj => ?_, by omega⟩⟩
    have := hn k hik hkj
    omega

/-- A `[` is unmatched iff the profile stays above it for good. -/
theorem unmatchedOpening_iff : UnmatchedOpening t i ↔
    instrAt t i = some .loopStart ∧ ∀ k, i < k → depthAt t i < depthAt t k := by
  refine and_congr_right fun ho => ⟨fun hm => ?_, fun hn j hj => ?_⟩
  · -- where the profile first falls back to `i`, the last byte is the partner of the `[`
    by_contra! hex
    have hex : ∃ k, i < k ∧ depthAt t k ≤ depthAt t i := hex
    obtain ⟨hik, hk⟩ := Nat.find_spec hex
    have hmin := fun m (hm : m < Nat.find hex) => Nat.find_min hex hm
    generalize Nat.find hex = k at hik hk hmin
    obtain ⟨j, rfl⟩ : ∃ j, k = j + 1 := ⟨k - 1, by omega⟩
    have hi := depthAt_succ t i
    have hj := depthAt_succ t j
    rw [ho] at hi
    simp only [Instr.weight] at hi
    have hij : i ≠ j := by
      rintro rfl
      omega
    have hjd : depthAt t i < depthAt t j := by
      have := hmin j (by omega)
      simp only [not_and, not_le] at this
      exact this (by omega)
    rcases weight_cases (instrAt t j) with ⟨-, hw⟩ | ⟨hc, hw⟩ | ⟨-, hw⟩
    · omega
    · refine hm j (matched_iff.mpr ⟨by omega, ho, hc, fun m him hmj => ?_, by omega⟩)
      have := hmin m (by omega)
      simp only [not_and, not_le] at this
      exact this him
    · omega
  · obtain ⟨hlt, -, -, -, he⟩ := matched_iff.mp hj
    have := hn (j + 1) (by omega)
    omega

/-- A `]` is unmatched iff the profile was never as low before. -/
theorem unmatchedClosing_iff : UnmatchedClosing t j ↔
    instrAt t j = some .loopEnd ∧ ∀ k, k ≤ j → depthAt t (j + 1) < depthAt t k := by
  refine and_congr_right fun hc => ⟨fun hm => ?_, fun hn i hi => ?_⟩
  · -- the last place before `j` at which the profile is as low is the partner of the `]`
    by_contra! hex
    obtain ⟨k₀, hk₀, hd₀⟩ := hex
    have hspec := Nat.findGreatest_spec (P := fun k => depthAt t k ≤ depthAt t (j + 1)) hk₀ hd₀
    have hle := Nat.findGreatest_le (P := fun k => depthAt t k ≤ depthAt t (j + 1)) j
    have hmax := fun m (h : Nat.findGreatest (fun k => depthAt t k ≤ depthAt t (j + 1)) j < m) =>
      Nat.findGreatest_is_greatest (P := fun k => depthAt t k ≤ depthAt t (j + 1)) (n := j) h
    generalize Nat.findGreatest (fun k => depthAt t k ≤ depthAt t (j + 1)) j = i at hspec hle hmax
    have hi := depthAt_succ t i
    have hj := depthAt_succ t j
    rw [hc] at hj
    simp only [Instr.weight] at hj
    have hij : i ≠ j := by
      rintro rfl
      omega
    have hid := hmax (i + 1) (by omega) (by omega)
    rcases weight_cases (instrAt t i) with ⟨ho, hw⟩ | ⟨-, hw⟩ | ⟨-, hw⟩
    · refine hm i (matched_iff.mpr ⟨by omega, ho, hc, fun m him hmj => ?_, by omega⟩)
      have := hmax m him hmj
      omega
    · omega
    · omega
  · obtain ⟨hlt, -, -, -, he⟩ := matched_iff.mp hi
    have := hn i (by omega)
    omega

/-- A text has no unmatched `]` iff its profile is never below zero. -/
theorem forall_not_unmatchedClosing_iff :
    (∀ j, ¬ UnmatchedClosing t j) ↔ ∀ k, 0 ≤ depthAt t k := by
  constructor
  · intro h
    by_contra! hex
    have hk := Nat.find_spec hex
    have hmin := fun m (hm : m < Nat.find hex) => Nat.find_min hex hm
    generalize Nat.find hex = k at hk hmin
    have hk0 : k ≠ 0 := by
      rintro rfl
      simp at hk
    obtain ⟨j, rfl⟩ : ∃ j, k = j + 1 := ⟨k - 1, by omega⟩
    have hj := depthAt_succ t j
    have hj0 := hmin j (by omega)
    rcases weight_cases (instrAt t j) with ⟨-, hw⟩ | ⟨hc, hw⟩ | ⟨-, hw⟩
    · omega
    · refine h j (unmatchedClosing_iff.mpr ⟨hc, fun m hm => ?_⟩)
      have := hmin m (by omega)
      omega
    · omega
  · intro h j hj
    have := (unmatchedClosing_iff.mp hj).2 0 (by omega)
    rw [depthAt_zero] at this
    have := h (j + 1)
    omega

end Brainfuck
