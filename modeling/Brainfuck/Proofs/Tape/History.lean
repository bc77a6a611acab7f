import Brainfuck.Tape
import Mathlib

/-!
The history of a tape. What a tape is after any sequence of operations can be told from the operations
alone: the pointer is where the moves lead if they are kept within the row of cells, and a cell holds the
byte that was last set there, with what was counted up and down there since (`Tape.told_by_history`).

One operation touches no cell but the current one, moves the pointer by one at most, and finds the cell
that it needs as long as the pointer is on the tape (`Tape.exists_after?`). That the pointer stays there is
part of what each operation keeps (`Tape.Told`).
-/

namespace Brainfuck

namespace Tape

/-- An operation on a tape. -/
inductive Op where
  | right
  | left
  | increment
  | decrement
  | set (b : UInt8)
  deriving DecidableEq, Repr

/-- What comes of an operation: the tape after it, or the bound at which it is refused. Nothing comes of
one that needs a cell that is not there. -/
def perform? (t : Tape) : Op → Option (Except Bound Tape)
  | .right => some t.moveRight
  | .left => some t.moveLeft
  | .increment => if t.get?.isSome then some (.ok t.increment) else none
  | .decrement => if t.get?.isSome then some (.ok t.decrement) else none
  | .set b => if t.get?.isSome then some (.ok (t.set b)) else none

/-- The tape after an operation. One that is refused leaves it as it is. -/
def after? (t : Tape) (op : Op) : Option Tape :=
  (t.perform? op).map fun
    | .ok t' => t'
    | .error _ => t

/-- The tape after a history of operations, of which the first was done first. -/
def afterAll? (t : Tape) (ops : List Op) : Option Tape := ops.foldlM after? t

/-! ### What a history tells -/

/-- How far to the right an operation moves the pointer, if nothing is in its way. -/
def Op.shift : Op → Int
  | .right => 1
  | .left => -1
  | .increment | .decrement | .set _ => 0

/-- What an operation makes of the current cell. -/
def Op.onCell : Op → UInt8 → UInt8
  | .right | .left => id
  | .increment => (· + 1)
  | .decrement => (· - 1)
  | .set b => fun _ => b

/-- The byte that an operation sets. -/
def Op.value? : Op → Option UInt8
  | .set b => some b
  | .right | .left | .increment | .decrement => none

/-- Where an operation leads from the position `p`, if it is kept within `n` cells. -/
def clamped (n : Nat) (p : Int) (op : Op) : Int := max 0 (min (n - 1) (p + op.shift))

/-- Where a history leads from the first of `n` cells. -/
def position (n : Nat) (ops : List Op) : Int := ops.foldl (clamped n) 0

/-- The operations of a history that were done with the pointer on the cell `k`. -/
def doneAt (n : Nat) (ops : List Op) (k : Nat) : List Op :=
  (((ops.scanl (clamped n) 0).zip ops).filter (·.1 = (k : Int))).map Prod.snd

/-- The byte that was set last; before any was set, the cell holds 0. -/
def lastSet (done : List Op) : UInt8 := (done.filterMap Op.value?).getLast?.getD 0

/-- The operations after the one that was the last to set a byte. -/
def sinceSet (done : List Op) : List Op := done.rtakeWhile (·.value?.isNone)

/-- The byte is what operations on a cell have left there. -/
def LeftBy (done : List Op) (b : UInt8) : Prop :=
  (b.toNat : Int) ≡ (lastSet done).toNat + (sinceSet done).count .increment -
    (sinceSet done).count .decrement [ZMOD 256]

/-- The tape is what the history tells of one that had `n` zero cells. -/
structure Told (n : Nat) (ops : List Op) (t : Tape) : Prop where
  length : t.length = n
  pointer : (t.pointer : Int) = position n ops
  cells : ∀ k b, t.toList[k]? = some b → LeftBy (doneAt n ops k) b

variable {n : Nat} {t : Tape} {ops done : List Op} {op : Op} {b : UInt8}

/-! ### One operation more -/

lemma position_concat (n : Nat) (ops : List Op) (op : Op) :
    position n (ops ++ [op]) = clamped n (position n ops) op := by
  simp [position]

/-- A scan that goes on pairs its last state with the last element. -/
lemma zip_scanl_concat {α β : Type} (f : β → α → β) (s : β) (l : List α) (a : α) :
    ((l ++ [a]).scanl f s).zip (l ++ [a]) = (l.scanl f s).zip l ++ [(l.foldl f s, a)] := by
  induction l generalizing s with
  | nil => simp
  | cons c l ih => simp [ih]

lemma doneAt_concat (n : Nat) (ops : List Op) (op : Op) (k : Nat) :
    doneAt n (ops ++ [op]) k = doneAt n ops k ++ if position n ops = k then [op] else [] := by
  unfold doneAt position
  rw [zip_scanl_concat, List.filter_append, List.map_append]
  congr 1
  split_ifs with h <;> simp [h]

lemma lastSet_concat (done : List Op) (op : Op) :
    lastSet (done ++ [op]) = op.value?.getD (lastSet done) := by
  unfold lastSet
  cases h : op.value? with
  | none => simp [h]
  | some b => simp [h]

lemma sinceSet_concat_of_none (h : op.value? = none) :
    sinceSet (done ++ [op]) = sinceSet done ++ [op] :=
  List.rtakeWhile_concat_pos _ _ _ (by simp [h])

lemma sinceSet_concat_set (done : List Op) (b : UInt8) : sinceSet (done ++ [.set b]) = [] :=
  List.rtakeWhile_concat_neg _ _ _ (by simp [Op.value?])

/-- What one more operation on a cell leaves there. -/
lemma LeftBy.concat (h : LeftBy done b) (op : Op) : LeftBy (done ++ [op]) (op.onCell b) := by
  unfold LeftBy Int.ModEq at *
  rw [lastSet_concat]
  cases op with
  | right | left =>
    rw [sinceSet_concat_of_none rfl]
    simpa [Op.value?, Op.onCell, List.count_append] using h
  | increment =>
    rw [sinceSet_concat_of_none rfl]
    have hcell : (b + 1).toNat = (b.toNat + 1) % 256 := UInt8.toNat_add b 1
    simp only [Op.value?, Op.onCell, hcell, List.count_append, Option.getD_none]
    simp
    omega
  | decrement =>
    rw [sinceSet_concat_of_none rfl]
    have hcell : (b - 1).toNat = (256 - 1 + b.toNat) % 256 := UInt8.toNat_sub b 1
    simp only [Op.value?, Op.onCell, hcell, List.count_append, Option.getD_none]
    simp
    omega
  | set v => simp [sinceSet_concat_set, Op.value?, Op.onCell]

/-! ### One operation on a tape -/

lemma moveRight_eq_error_iff {bound : Bound} :
    t.moveRight = .error bound ↔ bound = .high ∧ t.length ≤ t.pointer + 1 := by
  unfold moveRight rightBound?
  split_ifs with h
  · simp; omega
  · simp [eq_comm]; omega

lemma moveLeft_eq_error_iff {bound : Bound} :
    t.moveLeft = .error bound ↔ bound = .low ∧ t.pointer = 0 := by
  unfold moveLeft leftBound?
  split_ifs with h
  · simp [h, eq_comm]
  · simp [h]

/-- **What one operation does.** With the pointer on the tape, an operation finds the cell that it needs;
it changes no other cell, and it moves the pointer no further than to the end of the tape. -/
theorem exists_after? (h : t.pointer < t.length) (op : Op) :
    ∃ t', t.after? op = some t' ∧ t'.toList = t.toList.modify t.pointer op.onCell ∧
      (t'.pointer : Int) = clamped t.length t.pointer op := by
  have hcell : t.get?.isSome := t.isSome_get?.mpr h
  cases op with
  | right =>
    unfold after? perform? moveRight rightBound?
    split_ifs with hlt
    · refine ⟨t.right, rfl, (List.modify_id _ _).symm, ?_⟩
      simp only [right, clamped, Op.shift]
      omega
    · refine ⟨t, rfl, (List.modify_id _ _).symm, ?_⟩
      simp only [clamped, Op.shift]
      omega
  | left =>
    unfold after? perform? moveLeft leftBound?
    split_ifs with hzero
    · refine ⟨t, rfl, (List.modify_id _ _).symm, ?_⟩
      simp only [clamped, Op.shift]
      omega
    · refine ⟨t.left, rfl, (List.modify_id _ _).symm, ?_⟩
      simp only [left, clamped, Op.shift]
      omega
  | increment =>
    refine ⟨t.increment, by simp [after?, perform?, hcell], toList_modify t _, ?_⟩
    simp only [increment, pointer_modify, clamped, Op.shift]
    omega
  | decrement =>
    refine ⟨t.decrement, by simp [after?, perform?, hcell], toList_modify t _, ?_⟩
    simp only [decrement, pointer_modify, clamped, Op.shift]
    omega
  | set b =>
    refine ⟨t.set b, by simp [after?, perform?, hcell], ?_, ?_⟩
    · rw [toList_set, List.modify_eq_set]
      rfl
    · simp only [pointer_set, clamped, Op.shift]
      omega

lemma position_nonneg (n : Nat) (ops : List Op) : 0 ≤ position n ops := by
  induction ops using List.reverseRecOn with
  | nil => exact Int.le_refl 0
  | append_singleton ops op ih =>
    rw [position_concat]
    exact Int.le_max_left ..

lemma position_lt (hn : 1 ≤ n) (ops : List Op) : position n ops < n := by
  induction ops using List.reverseRecOn with
  | nil =>
    simp only [position, List.foldl_nil]
    omega
  | append_singleton ops op ih =>
    rw [position_concat, clamped]
    omega

/-! ### A history of operations -/

lemma told_blank (n : Nat) : Told n [] (blank n) where
  length := length_blank n
  pointer := rfl
  cells k b hb := by
    rw [toList_blank] at hb
    obtain rfl := List.eq_of_mem_replicate (List.mem_of_getElem? hb)
    exact Int.ModEq.refl 0

/-- One more operation is done, and the tape is what the history tells with it. -/
lemma Told.exists_after? (hn : 1 ≤ n) (h : Told n ops t) (op : Op) :
    ∃ t', t.after? op = some t' ∧ Told n (ops ++ [op]) t' := by
  obtain ⟨hlength, hpointer, hcells⟩ := h
  have hlt : t.pointer < t.length := by
    have := position_lt hn ops
    omega
  obtain ⟨t', hafter, hlist, hpointer'⟩ := Tape.exists_after? hlt op
  refine ⟨t', hafter, ?_, ?_, ?_⟩
  · rw [← length_toList, hlist, List.length_modify, length_toList, hlength]
  · rw [hpointer', position_concat, hlength, hpointer]
  · intro k b hb
    rw [hlist, List.getElem?_modify] at hb
    obtain ⟨c, hc, rfl⟩ := Option.map_eq_some_iff.mp hb
    -- the operation is one of those done at `k` exactly if `k` is the current cell
    rw [doneAt_concat, ← hpointer]
    split_ifs with hk hk' hk'
    · exact (hcells k c hc).concat op
    · omega
    · omega
    · rw [List.append_nil]
      exact hcells k c hc

lemma exists_told (hn : 1 ≤ n) (ops : List Op) :
    ∃ t, (blank n).afterAll? ops = some t ∧ Told n ops t := by
  induction ops using List.reverseRecOn with
  | nil => exact ⟨blank n, rfl, told_blank n⟩
  | append_singleton ops op ih =>
    obtain ⟨t, hall, ht⟩ := ih
    obtain ⟨t', hafter, ht'⟩ := ht.exists_after? hn op
    refine ⟨t', ?_, ht'⟩
    rw [afterAll?, List.foldlM_append, ← afterAll?, hall]
    simpa using hafter

/-- **A tape is what its history tells.** On a tape that had `n` zero cells no operation lacks the cell
that it needs, whatever was done before. The length stays, and the pointer is where the moves lead within
the cells. A move is refused exactly if it would leave them, at the bound that lies there, and then the
tape stays as it is. Each cell holds modulo 256 what was last set there, and what was counted since. -/
theorem told_by_history (n : Nat) (hn : 1 ≤ n) (ops : List Op) :
    ∃ t, (blank n).afterAll? ops = some t ∧ t.length = n ∧
      (t.pointer : Int) = position n ops ∧ 0 ≤ position n ops ∧ position n ops ≤ n - 1 ∧
      (∀ op bound, t.perform? op = some (.error bound) ↔
        bound = .high ∧ (n - 1 : Int) < position n ops + op.shift ∨
        bound = .low ∧ position n ops + op.shift < 0) ∧
      (∀ op bound, t.perform? op = some (.error bound) → t.after? op = some t) ∧
      ∀ k < n, ∃ b, t.toList[k]? = some b ∧
        (b.toNat : Int) ≡ (lastSet (doneAt n ops k)).toNat +
          (sinceSet (doneAt n ops k)).count .increment -
          (sinceSet (doneAt n ops k)).count .decrement [ZMOD 256] := by
  obtain ⟨t, hall, hlength, hpointer, hcells⟩ := exists_told hn ops
  have hnonneg := position_nonneg n ops
  have hlt := position_lt hn ops
  refine ⟨t, hall, hlength, hpointer, hnonneg, by omega, ?_, ?_, ?_⟩
  · intro op bound
    cases op with
    | right =>
      have hhigh : t.length ≤ t.pointer + 1 ↔ (n - 1 : Int) < position n ops + 1 := by omega
      have hlow : ¬ position n ops + 1 < 0 := by omega
      simp only [perform?, Op.shift, Option.some.injEq, moveRight_eq_error_iff, hhigh, hlow,
        and_false, or_false]
    | left =>
      have hhigh : ¬ (n - 1 : Int) < position n ops + -1 := by omega
      have hlow : t.pointer = 0 ↔ position n ops + -1 < 0 := by omega
      simp only [perform?, Op.shift, Option.some.injEq, moveLeft_eq_error_iff, hhigh, hlow,
        and_false, false_or]
    | increment | decrement | set b =>
      simp only [perform?, Op.shift]
      split_ifs <;> simp <;> omega
  · intro op bound hrefused
    rw [after?, hrefused]
    rfl
  · intro k hk
    have hk : k < t.toList.length := by rwa [length_toList, hlength]
    have hb := List.getElem?_eq_getElem hk
    exact ⟨_, hb, hcells k _ hb⟩

/-- The pointer runs into both ends of two cells; what was counted on the second one before 255 was set
there no longer matters. -/
theorem told_by_history_both_ends :
    let ops : List Op := [.left, .decrement, .right, .increment, .right, .set 255, .increment,
      .increment, .left, .left, .decrement]
    ∃ t, (blank 2).afterAll? ops = some t ∧ t.pointer = 0 ∧
      (∃ b, t.toList[0]? = some b ∧ (b.toNat : Int) ≡ -2 [ZMOD 256]) ∧
      ∃ b, t.toList[1]? = some b ∧ (b.toNat : Int) ≡ 1 [ZMOD 256] := by
  intro ops
  obtain ⟨t, hall, -, hpointer, -, -, -, -, hcells⟩ := told_by_history 2 (by decide) ops
  have hposition : position 2 ops = 0 := by decide
  refine ⟨t, hall, by omega, ?_, ?_⟩
  · obtain ⟨b, hb, hcell⟩ := hcells 0 (by decide)
    exact ⟨b, hb, hcell.trans (by decide)⟩
  · obtain ⟨b, hb, hcell⟩ := hcells 1 (by decide)
    exact ⟨b, hb, hcell.trans (by decide)⟩

end Tape

end Brainfuck
