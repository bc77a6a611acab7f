import Brainfuck.Text.Scan
import Mathlib

/-!
What scanners read. A property of everything that a scanner can read (`Scan.Ensures`) is shown along the
way the scanner is put together, with one rule for each way.
-/

namespace Brainfuck

namespace Scan

/-- All that the scanner reads has the property, whatever the input. -/
def Ensures {α : Type} (s : Scan α) (P : α → Prop) : Prop :=
  ∀ input a rest, s.run input = some (a, rest) → P a

variable {α β : Type} {s s' : Scan α} {t : Scan β} {f : α → Scan β} {P : α → Prop} {Q : β → Prop} {a : α}

lemma Ensures.imp (h : s.Ensures P) {P' : α → Prop} (hP : ∀ a, P a → P' a) : s.Ensures P' :=
  fun input a rest ha => hP a (h input a rest ha)

lemma ensures_true (s : Scan α) : s.Ensures fun _ => True := fun _ _ _ _ => trivial

lemma ensures_pure (h : P a) : (pure a : Scan α).Ensures P := by
  intro input b rest hb
  cases hb
  exact h

lemma ensures_failure : (failure : Scan α).Ensures P := by
  intro input a rest h
  cases h

lemma Ensures.bind (h : s.Ensures P) (hf : ∀ a, P a → (f a).Ensures Q) : (s >>= f).Ensures Q := by
  intro input b rest hb
  rw [StateT.run_bind] at hb
  obtain ⟨⟨a, middle⟩, ha, hb⟩ := Option.bind_eq_some_iff.mp hb
  exact hf a (h input a middle ha) middle b rest hb

/-- What is read first does not matter. -/
lemma ensures_bind (hf : ∀ a, (f a).Ensures Q) : (s >>= f).Ensures Q :=
  s.ensures_true.bind fun a _ => hf a

lemma ensures_ite {c : Prop} [Decidable c] (h : s.Ensures P) (h' : s'.Ensures P) :
    (if c then s else s').Ensures P := by
  split_ifs
  · exact h
  · exact h'

lemma ensures_seqRight (h : t.Ensures Q) : (s *> t).Ensures Q := by
  rw [seqRight_eq_bind]
  exact ensures_bind fun _ => h

lemma Ensures.seqLeft (h : s.Ensures P) : (s <* t).Ensures P := by
  rw [seqLeft_eq_bind]
  exact h.bind fun _ ha => ensures_bind fun _ => ensures_pure ha

lemma Ensures.map {g : α → β} (h : s.Ensures fun a => Q (g a)) : (g <$> s).Ensures Q := by
  rw [map_eq_pure_bind]
  exact h.bind fun _ ha => ensures_pure ha

lemma Ensures.orElse (h : s.Ensures P) (h' : s'.Ensures P) : (s <|> s').Ensures P := by
  intro input a rest ha
  have ha : (s.run input <|> s'.run input) = some (a, rest) := ha
  cases hs : s.run input with
  | none =>
    rw [hs] at ha
    exact h' input a rest ha
  | some found =>
    rw [hs] at ha
    exact h input a rest (hs.trans ha)

lemma run_optional? (s : Scan α) (input : List Char) :
    (optional? s).run input = match s.run input with
      | some (a, rest) => some (some a, rest)
      | none => some (none, input) :=
  rfl

lemma Ensures.optional? (h : s.Ensures P) : (optional? s).Ensures fun found => ∀ a ∈ found, P a := by
  intro input found rest hfound a ha
  obtain rfl : found = some a := ha
  rw [run_optional?] at hfound
  cases hs : s.run input with
  | none =>
    rw [hs] at hfound
    cases hfound
  | some found =>
    rw [hs] at hfound
    cases hfound
    exact h input _ _ hs

lemma Ensures.manyWithin (h : s.Ensures P) (fuel : List Char) :
    (manyWithin s fuel).Ensures fun as => ∀ a ∈ as, P a := by
  induction fuel with
  | nil => exact ensures_pure (List.forall_mem_nil P)
  | cons _ fuel ih =>
    refine h.optional?.bind fun found hfound => ?_
    cases found with
    | none => exact ensures_pure (List.forall_mem_nil P)
    | some a =>
      refine ih.bind fun as has => ensures_pure ?_
      exact List.forall_mem_cons.mpr ⟨hfound a rfl, has⟩

lemma Ensures.many (h : s.Ensures P) : (many s).Ensures fun as => ∀ a ∈ as, P a :=
  fun input => h.manyWithin input input

lemma Ensures.separated (h : s.Ensures P) (separator : Scan Unit) :
    (separated s separator).Ensures fun as => ∀ a ∈ as, P a := by
  refine h.bind fun a ha => ?_
  refine (ensures_seqRight h).many.bind fun as has => ensures_pure ?_
  exact List.forall_mem_cons.mpr ⟨ha, has⟩

end Scan

end Brainfuck
