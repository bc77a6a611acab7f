import Mathlib.Data.List.TakeWhile

/-!
Scripts of what successive calls come to. A script is used up from its beginning, and past its end it
goes on with one item for ever (`Gives`). A call that is interrupted is made again, so that a caller
gets from a script some interruptions and the first item that is none (`attempts`).
-/

namespace Brainfuck

/-- The script gives out the items one after another, and the rest is left of it. Past its end it
gives out `past`. -/
inductive Gives {α : Type} (past : α) : List α → List α → List α → Prop
  | nil (script : List α) : Gives past script [] script
  | cons {script items rest : List α} {x : α} : script.headD past = x →
      Gives past script.tail items rest → Gives past script (x :: items) rest

/-- What the first call comes to that is not interrupted. -/
def settled {α : Type} (interrupted : α → Bool) (past : α) (script : List α) : α :=
  (script.dropWhile interrupted).headD past

/-- What the calls come to that are made until one is not interrupted. -/
def attempts {α : Type} (interrupted : α → Bool) (past : α) (script : List α) : List α :=
  script.takeWhile interrupted ++ [settled interrupted past script]

variable {α : Type} {past x : α} {script script' items items' rest rest' used : List α}
  {interrupted : α → Bool}

/-! ### Items in a row -/

namespace Gives

lemma append (h : Gives past script items rest) (h' : Gives past rest items' rest') :
    Gives past script (items ++ items') rest' := by
  induction h with
  | nil script => exact h'
  | cons hx _ ih => exact .cons hx (ih h')

lemma of_append (h : Gives past script (items ++ items') rest) :
    ∃ mid, Gives past script items mid ∧ Gives past mid items' rest := by
  induction items generalizing script with
  | nil => exact ⟨script, .nil script, h⟩
  | cons x items ih =>
    cases h with
    | cons hx h =>
      obtain ⟨mid, hmid, hrest⟩ := ih h
      exact ⟨mid, .cons hx hmid, hrest⟩

lemma rest_eq (h : Gives past script items rest) : rest = script.drop items.length := by
  induction h with
  | nil script => rfl
  | cons _ _ ih => rw [ih, List.drop_tail, List.length_cons]

lemma append_left (used rest : List α) : Gives past (used ++ rest) used rest := by
  induction used with
  | nil => exact .nil rest
  | cons x used ih => exact .cons rfl ih

/-- The items of a kind that the script cannot go on with are all in the script. -/
lemma countP_take (h : Gives past script items rest) {P : α → Bool} (hpast : ¬ P past) :
    (script.take items.length).countP P = items.countP P := by
  induction h with
  | nil script => rfl
  | @cons script items rest x hx _ ih =>
    cases script with
    | nil =>
      obtain rfl : past = x := hx
      rw [List.countP_cons_of_neg hpast, ← ih]
      simp
    | cons x' script =>
      obtain rfl : x' = x := hx
      rw [List.length_cons, List.take_succ_cons, List.countP_cons, List.countP_cons, ← ih]
      rfl

/-- Each item is of a kind that the script cannot go on with, and so in the script, or it is not. -/
lemma length_eq (h : Gives past script items rest) {P : α → Bool} (hpast : ¬ P past) :
    items.length = (script.take items.length).countP P + items.countP fun x => !P x := by
  rw [h.countP_take hpast]
  simpa using List.length_eq_countP_add_countP P

/-- A script that has the same items as far as they are given out gives out the same. -/
lemma of_getD (h : Gives past script items rest)
    (hsame : ∀ i < items.length, script'.getD i past = script.getD i past) :
    Gives past script' items (script'.drop items.length) := by
  induction h generalizing script' with
  | nil script => exact .nil script'
  | @cons script items rest x hx _ ih =>
    have hhead : script'.headD past = x := by
      have h0 := hsame 0 (by simp)
      rwa [List.getD_eq_getElem?_getD, List.getD_eq_getElem?_getD, ← List.head?_eq_getElem?,
        ← List.head?_eq_getElem?, ← List.headD_eq_head?_getD, ← List.headD_eq_head?_getD, hx] at h0
    have htail : ∀ i < items.length, script'.tail.getD i past = script.tail.getD i past := by
      intro i hi
      have hsucc := hsame (i + 1) (by simpa using hi)
      simpa only [List.getD_eq_getElem?_getD, List.getElem?_tail] using hsucc
    refine .cons hhead ?_
    rw [List.length_cons, ← List.drop_tail]
    exact ih htail

end Gives

/-! ### Calls that are made again -/

lemma not_interrupted_settled (hpast : ¬ interrupted past) (script : List α) :
    ¬ interrupted (settled interrupted past script) := by
  unfold settled
  induction script with
  | nil => exact hpast
  | cons x script ih =>
    by_cases hx : interrupted x
    · rwa [List.dropWhile_cons_of_pos hx]
    · rwa [List.dropWhile_cons_of_neg hx]

lemma settled_cons_of_interrupted (hx : interrupted x) (script : List α) :
    settled interrupted past (x :: script) = settled interrupted past script := by
  rw [settled, List.dropWhile_cons_of_pos hx, settled]

lemma attempts_cons_of_interrupted (hx : interrupted x) (script : List α) :
    attempts interrupted past (x :: script) = x :: attempts interrupted past script := by
  simp [attempts, settled, hx]

lemma attempts_cons_of_not (hx : ¬ interrupted x) (script : List α) :
    attempts interrupted past (x :: script) = [x] := by
  simp [attempts, settled, hx]

lemma attempts_of_headD (h : script.headD past = x) (hx : ¬ interrupted x) :
    attempts interrupted past script = [x] := by
  cases script with
  | nil =>
    obtain rfl : past = x := h
    rfl
  | cons x' script =>
    obtain rfl : x' = x := h
    exact attempts_cons_of_not hx script

lemma gives_attempts (interrupted : α → Bool) (past : α) (script : List α) :
    Gives past script (attempts interrupted past script) (script.dropWhile interrupted).tail := by
  have hused : Gives past (script.takeWhile interrupted ++ script.dropWhile interrupted)
      (script.takeWhile interrupted) (script.dropWhile interrupted) := .append_left _ _
  rw [List.takeWhile_append_dropWhile] at hused
  exact hused.append (.cons rfl (.nil _))

/-- A script that gives out what a caller gets from another one gives it to the caller, too. -/
theorem Gives.attempts_eq (hpast : ¬ interrupted past)
    (h : Gives past script' (attempts interrupted past script) rest) :
    attempts interrupted past script' = attempts interrupted past script := by
  induction script generalizing script' with
  | nil =>
    cases h with
    | cons hx _ => exact attempts_of_headD hx hpast
  | cons x script ih =>
    by_cases hx : interrupted x
    · rw [attempts_cons_of_interrupted hx] at h ⊢
      cases h with
      | cons hhead h =>
        cases script' with
        | nil =>
          obtain rfl : past = x := hhead
          exact absurd hx hpast
        | cons x' script' =>
          obtain rfl : x' = x := hhead
          have hrest := ih h
          rw [List.tail_cons] at hrest
          rw [attempts_cons_of_interrupted hx, hrest]
    · rw [attempts_cons_of_not hx] at h ⊢
      cases h with
      | cons hhead _ => exact attempts_of_headD hhead hx

lemma settled_eq_of_attempts_eq
    (h : attempts interrupted past script' = attempts interrupted past script) :
    settled interrupted past script' = settled interrupted past script := by
  have hlast := congrArg List.getLast? h
  simpa [attempts] using hlast

end Brainfuck
