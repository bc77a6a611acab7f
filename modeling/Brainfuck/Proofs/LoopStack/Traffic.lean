import Brainfuck.LoopStack
import Mathlib

/-!
Traffic on the stack of open loops. Positions are pushed and popped in any order, and some pushes are
refused for want of room. What is on the stack stays at the bottom of it as long as the stack is never less
deep than that (`LoopStack.prefix_afterAll`). So where the stack is as deep again as it was after a push,
the position of that push is on top, and what lies below it has not been touched (`LoopStack.last_in_first_out`).
-/

namespace Brainfuck

namespace LoopStack

/-- An operation on the stack. -/
inductive Op where
  | push (ip : Nat)
  | pop
  deriving DecidableEq, Repr

/-- The stack after an operation. A push that is refused leaves it as it is. -/
def after (s : LoopStack) : Op → LoopStack
  | .push ip =>
    match s.push ip with
    | .ok s' => s'
    | .error _ => s
  | .pop => s.pop.2

/-- The stack after a sequence of operations, of which the first was done first. -/
def afterAll (s : LoopStack) (ops : List Op) : LoopStack := ops.foldl after s

variable {s s' : LoopStack} {op : Op} {ops : List Op} {ip c : Nat} {bottom : List Nat}

lemma afterAll_concat (s : LoopStack) (ops : List Op) (op : Op) :
    s.afterAll (ops ++ [op]) = (s.afterAll ops).after op := by
  simp [afterAll]

lemma eq_of_toList (h : s.toList = s'.toList) (hc : s.capacity = s'.capacity) : s = s' := by
  obtain ⟨⟨entries⟩, capacity⟩ := s
  obtain ⟨⟨entries'⟩, capacity'⟩ := s'
  obtain rfl : entries = entries' := h
  obtain rfl : capacity = capacity' := hc
  rfl

/-! ### One operation -/

lemma push_eq_error_iff : s.push ip = .error c ↔ s.capacity ≤ s.depth ∧ c = s.capacity := by
  unfold push isFull
  by_cases h : s.capacity ≤ s.depth <;> simp [h, eq_comm]

lemma push_eq_ok_iff : s.push ip = .ok s' ↔ s.depth < s.capacity ∧ s' = s.add ip := by
  unfold push isFull
  by_cases h : s.capacity ≤ s.depth
  · simp [h]
  · simp [h, Nat.lt_of_not_le h, eq_comm]

/-- **What one operation does**: it puts a position on top for which there is room, or is refused, or
takes the top away. -/
theorem after_cases (s : LoopStack) (op : Op) :
    (∃ ip, op = .push ip ∧ s.depth < s.capacity ∧ s.after op = s.add ip) ∨
    (∃ ip, op = .push ip ∧ s.capacity ≤ s.depth ∧ s.after op = s) ∨
    (op = .pop ∧ s.after op = s.drop) := by
  cases op with
  | push ip =>
    rcases Nat.lt_or_ge s.depth s.capacity with h | h
    · refine .inl ⟨ip, rfl, h, ?_⟩
      rw [after, push_eq_ok_iff.mpr ⟨h, rfl⟩]
    · refine .inr (.inl ⟨ip, rfl, h, ?_⟩)
      rw [after, push_eq_error_iff.mpr ⟨h, rfl⟩]
  | pop => exact .inr (.inr ⟨rfl, rfl⟩)

lemma capacity_after (s : LoopStack) (op : Op) : (s.after op).capacity = s.capacity := by
  obtain ⟨ip, -, -, h⟩ | ⟨ip, -, -, h⟩ | ⟨-, h⟩ := s.after_cases op <;> rw [h] <;> rfl

lemma depth_after_le (h : s.depth ≤ s.capacity) (op : Op) : (s.after op).depth ≤ s.capacity := by
  obtain ⟨ip, -, hroom, heq⟩ | ⟨ip, -, -, heq⟩ | ⟨-, heq⟩ := s.after_cases op
  · rw [heq, ← length_toList, toList_add, List.length_append, length_toList]
    exact hroom
  · rwa [heq]
  · rw [heq, ← length_toList, toList_drop, List.length_dropLast, length_toList]
    omega

/-- What is at the bottom stays there, unless the stack is then less deep than that. -/
lemma prefix_after (h : bottom <+: s.toList) (hdeep : bottom.length ≤ (s.after op).depth) :
    bottom <+: (s.after op).toList := by
  obtain ⟨ip, -, -, heq⟩ | ⟨ip, -, -, heq⟩ | ⟨-, heq⟩ := s.after_cases op
  · rw [heq, toList_add]
    exact h.trans (List.prefix_append ..)
  · rwa [heq]
  · rw [heq] at hdeep ⊢
    -- both are at the bottom of the stack before, and what is left is no shorter
    have hdrop : s.drop.toList <+: s.toList := toList_drop s ▸ List.dropLast_prefix _
    exact List.prefix_of_prefix_length_le h hdrop hdeep

/-! ### Any number of operations -/

lemma capacity_afterAll (s : LoopStack) (ops : List Op) :
    (s.afterAll ops).capacity = s.capacity := by
  induction ops using List.reverseRecOn with
  | nil => rfl
  | append_singleton ops op ih => rw [afterAll_concat, capacity_after, ih]

lemma depth_afterAll_le (h : s.depth ≤ s.capacity) (ops : List Op) :
    (s.afterAll ops).depth ≤ s.capacity := by
  induction ops using List.reverseRecOn with
  | nil => exact h
  | append_singleton ops op ih =>
    rw [← capacity_afterAll s ops] at ih ⊢
    rw [afterAll_concat]
    exact depth_after_le ih op

/-- What is at the bottom stays there, as long as the stack is never less deep than that. -/
lemma prefix_afterAll (h : bottom <+: s.toList)
    (hdeep : ∀ earlier, earlier <+: ops → bottom.length ≤ (s.afterAll earlier).depth) :
    bottom <+: (s.afterAll ops).toList := by
  induction ops using List.reverseRecOn with
  | nil => exact h
  | append_singleton ops op ih =>
    have hops := ih fun earlier he => hdeep earlier (he.trans (List.prefix_append ..))
    have hend := hdeep _ List.prefix_rfl
    rw [afterAll_concat] at hend ⊢
    exact prefix_after hops hend

/-- A stack that is as deep again as before, and was never less deep, is what it was before. -/
lemma afterAll_eq_self (hdeep : ∀ earlier, earlier <+: ops → s.depth ≤ (s.afterAll earlier).depth)
    (hend : (s.afterAll ops).depth = s.depth) : s.afterAll ops = s := by
  have hbottom : s.toList <+: (s.afterAll ops).toList := prefix_afterAll List.prefix_rfl hdeep
  have hlist : s.toList = (s.afterAll ops).toList := hbottom.eq_of_length hend.symm
  exact eq_of_toList hlist.symm (capacity_afterAll s ops)

lemma pop_add (s : LoopStack) (ip : Nat) : (s.add ip).pop = (some ip, s) := by
  refine Prod.ext ?_ (eq_of_toList ?_ rfl)
  · show (s.add ip).top? = some ip
    rw [top?_eq, toList_add, List.getLast?_concat]
  · show (s.add ip).drop.toList = s.toList
    rw [toList_drop, toList_add, List.dropLast_concat]

/-- **Last in, first out, and never above the capacity.** After any pushes and pops the stack is no deeper
than its capacity; a push is refused exactly if it is that deep, with the capacity as the error, and then
the stack stays as it is. When a push has succeeded, and after any traffic above it the stack is as deep
again as it was then, the position that was pushed is on top; one pop gives it back, with the stack as it
was before the push. -/
theorem last_in_first_out (capacity : Nat) (ops : List Op) :
    let s := (withCapacity capacity).afterAll ops
    s.depth ≤ capacity ∧
    (∀ ip c, s.push ip = .error c ↔ s.depth = capacity ∧ c = capacity) ∧
    (∀ ip, s.depth = capacity → s.after (.push ip) = s) ∧
    ∀ ip s', s.push ip = .ok s' → ∀ traffic,
      (∀ earlier, earlier <+: traffic → s'.depth ≤ (s'.afterAll earlier).depth) →
      (s'.afterAll traffic).depth = s'.depth →
      (s'.afterAll traffic).top? = some ip ∧ (s'.afterAll traffic).pop = (some ip, s) := by
  intro s
  have hcapacity : s.capacity = capacity := capacity_afterAll _ ops
  have hdepth : s.depth ≤ capacity := depth_afterAll_le (Nat.zero_le _) ops
  refine ⟨hdepth, ?_, ?_, ?_⟩
  · intro ip c
    rw [push_eq_error_iff, hcapacity]
    omega
  · intro ip hfull
    have hrefused : s.push ip = .error capacity :=
      push_eq_error_iff.mpr ⟨by omega, hcapacity.symm⟩
    rw [after, hrefused]
  · intro ip s' hpush traffic hdeep hend
    obtain ⟨-, rfl⟩ := push_eq_ok_iff.mp hpush
    rw [afterAll_eq_self hdeep hend]
    exact ⟨congrArg Prod.fst (pop_add s ip), pop_add s ip⟩

/-- Of three positions the third finds no room; a pop then gives back the second, and after one more push
and pop the first is on top again. -/
theorem last_in_first_out_refused :
    let s := (withCapacity 2).afterAll [.pop]
    let s' := s.add 4
    let traffic : List Op := [.push 7, .push 9, .pop, .push 8, .pop]
    s.push 4 = .ok s' ∧
      (∀ earlier, earlier <+: traffic → s'.depth ≤ (s'.afterAll earlier).depth) ∧
      (s'.afterAll traffic).pop = (some 4, s) := by
  intro s s' traffic
  have hpush : s.push 4 = .ok s' := rfl
  have hall : ∀ earlier ∈ traffic.inits, s'.depth ≤ (s'.afterAll earlier).depth := by decide
  have hdeep : ∀ earlier, earlier <+: traffic → s'.depth ≤ (s'.afterAll earlier).depth :=
    fun earlier he => hall earlier ((List.mem_inits earlier traffic).mpr he)
  obtain ⟨-, -, -, hpop⟩ := last_in_first_out 2 [.pop]
  exact ⟨hpush, hdeep, (hpop 4 s' hpush traffic hdeep rfl).2⟩

end LoopStack

end Brainfuck
