import Brainfuck.Proofs.Brackets.Rounds

/-!
The search for a partner with words of 64 bits: the position is an unsigned word, of which sum and
difference are checked, and the counter is a signed word, which would wrap around.

The counter never comes near that. Forward it is at most one more than the position, backward it is at
most the number of positions from there to the end of the text, and it is at least one
(`Search.InBounds.of_round`); so with words the search finds what it finds with numbers
(`Program.partnerOnWords_eq`).
-/

namespace Brainfuck

/-- The next position as a word; a sum that wraps around is no position. -/
def Direction.nextOnWords? (d : Direction) (length i : UInt64) : Option UInt64 :=
  match d with
  | .forward => if i + 1 = 0 then none else if i + 1 < length then some (i + 1) else none
  | .backward => if i = 0 then none else some (i - 1)

/-- The number of positions that there are ahead of `i` among all words. -/
def Direction.ahead (d : Direction) (i : UInt64) : Nat :=
  match d with
  | .forward => 2 ^ 64 - i.toNat
  | .backward => i.toNat

/-- The counter is at least one, and it is at most what the places on the near side of the position allow
for. -/
structure Search.InBounds (d : Direction) (length : Nat) (s : Search) : Prop where
  position_lt : s.position < length
  one_le : 1 ≤ s.depth
  le : s.depth ≤ match d with
    | .forward => (s.position : Int) + 1
    | .backward => (length : Int) - s.position

variable {p : Program} {d : Direction} {s s' : Search} {i j : UInt64} {length n : Nat}

/-! ### The counter -/

namespace Search.InBounds

lemma start (d : Direction) (h : n < length) : InBounds d length ⟨n, 1⟩ := by
  refine ⟨h, le_rfl, ?_⟩
  cases d with
  | forward => simp
  | backward =>
    simp only
    omega

/-- The counter is at most the length of the text. -/
lemma depth_le (h : s.InBounds d length) : s.depth ≤ length := by
  have hlt := h.position_lt
  have hle := h.le
  cases d with
  | forward =>
    simp only at hle
    omega
  | backward =>
    simp only at hle
    omega

/-- **Each round keeps the counter in its bounds.** -/
theorem of_round (h : s.InBounds d p.size) (hr : p.round d s = .goesOn s') :
    s'.InBounds d p.size := by
  obtain ⟨hlt, hone, hle⟩ := h
  have hnext := Program.next?_of_round hr
  have hi : s'.position < p.size := by
    by_contra hi
    rw [Program.round_of_size_le hnext (Nat.le_of_not_lt hi)] at hr
    cases hr
  rw [Program.round_of_next? hnext hi] at hr
  -- a round adds one, takes one away without coming to zero, or leaves the counter alone
  have hdepth : 1 ≤ s'.depth ∧ s'.depth ≤ s.depth + 1 := by
    split_ifs at hr with hdeeper hcloser hzero
    all_goals
      have := congrArg Search.depth (Round.goesOn.inj hr)
      dsimp only at this
      omega
  refine ⟨hi, hdepth.1, ?_⟩
  unfold Direction.next? at hnext
  cases d with
  | forward =>
    simp only [Option.ite_none_right_eq_some, Option.some.injEq] at hnext hle ⊢
    omega
  | backward =>
    simp only [Option.ite_none_left_eq_some, Option.some.injEq] at hnext hle ⊢
    omega

end Search.InBounds

/-! ### Words -/

namespace Word

lemma toNat_ofNat (h : n < 2 ^ 64) : (UInt64.ofNat n).toNat = n := UInt64.toNat_ofNat_of_lt' h

lemma toNat_succ (h : i.toNat + 1 < 2 ^ 64) : (i + 1).toNat = i.toNat + 1 := by
  rw [UInt64.toNat_add]
  exact Nat.mod_eq_of_lt h

lemma eq_zero_iff : i = 0 ↔ i.toNat = 0 := by
  rw [← UInt64.toNat_inj]
  rfl

lemma toNat_pred (h : i ≠ 0) : (i - 1).toNat = i.toNat - 1 := by
  have hle : (1 : UInt64) ≤ i := by
    rw [UInt64.le_iff_toNat_le]
    exact Nat.pos_of_ne_zero (mt eq_zero_iff.mpr h)
  exact UInt64.toNat_sub_of_le _ _ hle

/-- A sum wraps around at the greatest word only. -/
lemma succ_eq_zero_iff : i + 1 = 0 ↔ i.toNat + 1 = 2 ^ 64 := by
  have hi := i.toNat_lt
  rw [← UInt64.toNat_inj, UInt64.toNat_add]
  show (i.toNat + 1) % 2 ^ 64 = 0 ↔ _
  omega

/-! A counter that is positive and small enough -/

section Counter

variable {depth : Int64} (hone : 1 ≤ depth.toInt)

include hone

lemma toInt_succ (h : depth.toInt + 1 < 2 ^ 63) : (depth + 1).toInt = depth.toInt + 1 := by
  have hlow : -(2 ^ 64 / 2) ≤ depth.toInt + 1 := by omega
  rw [Int64.toInt_add]
  exact Int.bmod_eq_of_le hlow h

lemma toInt_pred : (depth - 1).toInt = depth.toInt - 1 := by
  have hlow : -(2 ^ 64 / 2) ≤ depth.toInt - 1 := by omega
  have hhigh : depth.toInt - 1 < (2 ^ 64 + 1) / 2 := by
    have := depth.toInt_lt
    omega
  rw [Int64.toInt_sub]
  exact Int.bmod_eq_of_le hlow hhigh

lemma pred_eq_zero_iff : depth - 1 = 0 ↔ depth.toInt - 1 = 0 := by
  rw [← Int64.toInt_inj, toInt_pred hone]
  rfl

end Counter

end Word

namespace Direction

lemma map_toNat_nextOnWords? (d : Direction) (hlength : length < 2 ^ 63) (i : UInt64) :
    (d.nextOnWords? (.ofNat length) i).map UInt64.toNat = d.next? length i.toNat := by
  unfold nextOnWords? next?
  cases d with
  | forward =>
    simp only [Word.succ_eq_zero_iff, UInt64.lt_iff_toNat_lt,
      Word.toNat_ofNat (show length < 2 ^ 64 by omega)]
    by_cases hmax : i.toNat + 1 = 2 ^ 64
    · rw [if_pos hmax, if_neg (by omega)]
      rfl
    · have hi := i.toNat_lt
      have hsucc := Word.toNat_succ (show i.toNat + 1 < 2 ^ 64 by omega)
      rw [if_neg hmax, hsucc]
      split_ifs
      · rw [Option.map_some, hsucc]
      · rfl
  | backward =>
    simp only [← Word.eq_zero_iff]
    split_ifs with h0
    · rfl
    · exact congrArg some (Word.toNat_pred h0)

/-- A search goes one way, so it comes to its end. -/
lemma ahead_lt_of_nextOnWords? {size : UInt64} (h : d.nextOnWords? size i = some j) :
    d.ahead j < d.ahead i := by
  have hi := i.toNat_lt
  unfold nextOnWords? at h
  unfold ahead
  cases d with
  | forward =>
    simp only [Option.ite_none_left_eq_some, Option.ite_none_right_eq_some, Option.some.injEq,
      Word.succ_eq_zero_iff] at h ⊢
    obtain ⟨hmax, -, rfl⟩ := h
    rw [Word.toNat_succ (by omega)]
    omega
  | backward =>
    simp only [Option.ite_none_left_eq_some, Option.some.injEq] at h ⊢
    obtain ⟨h0, rfl⟩ := h
    rw [Word.toNat_pred h0]
    rw [Word.eq_zero_iff] at h0
    omega

end Direction

namespace Program

/-- The search from position `i` on, with the counter at `depth`. -/
def scanOnWords (p : Program) (d : Direction) (i : UInt64) (depth : Int64) :
    Except OutOfRange (Option UInt64) :=
  match h : d.nextOnWords? (.ofNat p.size) i with
  | none => .ok none
  | some j =>
    if hj : j.toNat < p.bytes.size then
      if Instr.ofByte? p.bytes[j.toNat] = some d.deeper then p.scanOnWords d j (depth + 1)
      else if Instr.ofByte? p.bytes[j.toNat] = some d.closer then
        if depth - 1 = 0 then .ok (some j) else p.scanOnWords d j (depth - 1)
      else p.scanOnWords d j depth
    else
      .error ⟨j.toNat, p.size⟩
termination_by d.ahead i
decreasing_by all_goals exact Direction.ahead_lt_of_nextOnWords? h

/-- The partner of a bracket at `start`, found with words. -/
def partnerOnWords (p : Program) (start : UInt64) (d : Direction) :
    Except OutOfRange (Option UInt64) :=
  p.scanOnWords d start 1

/-- **The rounds of a search with words** are those of the search with numbers. -/
theorem searches_scanOnWords (hsize : p.size < 2 ^ 63) (i : UInt64) (depth : Int64)
    (hs : Search.InBounds d p.size ⟨i.toNat, depth.toInt⟩) :
    ∃ seen, p.Searches d ⟨i.toNat, depth.toInt⟩ seen
      ((p.scanOnWords d i depth).map (Option.map UInt64.toNat)) := by
  -- a round that goes on keeps the counter in its bounds, and so the rest is as it should be
  have hround {i j : UInt64} {depth depth' : Int64} {answer : Except OutOfRange (Option Nat)} {k : Int}
      (hs : Search.InBounds d p.size ⟨i.toNat, depth.toInt⟩)
      (hr : p.round d ⟨i.toNat, depth.toInt⟩ = .goesOn ⟨j.toNat, k⟩)
      (hk : k ≤ p.size → depth'.toInt = k)
      (ih : Search.InBounds d p.size ⟨j.toNat, depth'.toInt⟩ →
        ∃ seen, p.Searches d ⟨j.toNat, depth'.toInt⟩ seen answer) :
      ∃ seen, p.Searches d ⟨i.toNat, depth.toInt⟩ seen answer := by
    have hs' := hs.of_round hr
    obtain rfl := hk hs'.depth_le
    obtain ⟨seen, h⟩ := ih hs'
    exact ⟨_, .on hr h⟩
  have hnext {i j : UInt64} (h : d.nextOnWords? (.ofNat p.size) i = some j) :
      d.next? p.size i.toNat = some j.toNat := by
    rw [← d.map_toNat_nextOnWords? hsize, h, Option.map_some]
  fun_induction p.scanOnWords d i depth with
  | case1 i depth h =>
    have hn := d.map_toNat_nextOnWords? hsize i
    rw [h, Option.map_none] at hn
    exact ⟨_, .ends (round_of_next?_eq_none hn.symm)⟩
  | case2 i depth j h hj ho ih =>
    rw [← instr?_of_lt hj] at ho
    refine hround hs ((round_of_next? (hnext h) hj).trans (if_pos ho)) (fun hk => ?_) ih
    dsimp only at hk
    exact Word.toInt_succ hs.one_le (by omega)
  | case3 i depth j h hj ho hc hzero =>
    rw [← instr?_of_lt hj] at ho hc
    have hr := round_of_next? (s := ⟨i.toNat, depth.toInt⟩) (hnext h) hj
    rw [Word.pred_eq_zero_iff hs.one_le] at hzero
    rw [if_neg ho, if_pos hc, if_pos hzero] at hr
    exact ⟨_, .ends hr⟩
  | case4 i depth j h hj ho hc hzero ih =>
    rw [← instr?_of_lt hj] at ho hc
    have hr := round_of_next? (s := ⟨i.toNat, depth.toInt⟩) (hnext h) hj
    rw [Word.pred_eq_zero_iff hs.one_le] at hzero
    rw [if_neg ho, if_pos hc, if_neg hzero] at hr
    exact hround hs hr (fun _ => Word.toInt_pred hs.one_le) ih
  | case5 i depth j h hj ho hc ih =>
    rw [← instr?_of_lt hj] at ho hc
    have hr := round_of_next? (s := ⟨i.toNat, depth.toInt⟩) (hnext h) hj
    rw [if_neg ho, if_neg hc] at hr
    exact hround hs hr (fun _ => rfl) ih
  | case6 i depth j h hj =>
    exact ⟨_, .ends (round_of_size_le (hnext h) (Nat.le_of_not_lt hj))⟩

/-- **With words the partner is the same**, from any place of the text. -/
theorem partnerOnWords_eq (hsize : p.size < 2 ^ 63) {start : UInt64} (hstart : start.toNat < p.size)
    (d : Direction) :
    (p.partnerOnWords start d).map (Option.map UInt64.toNat) = p.partner start.toNat d := by
  obtain ⟨seen, h⟩ := searches_scanOnWords hsize start 1 (.start d hstart)
  obtain ⟨seen', h'⟩ := p.searches_partner start.toNat d
  exact (h.unique h').2

end Program

end Brainfuck
