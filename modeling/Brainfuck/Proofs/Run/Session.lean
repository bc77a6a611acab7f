import Brainfuck.Proofs.Run.Step

/-!
Whole runs and sessions. A run ends when some number of instructions brings it to an end
(`Run.Ends`); a session makes runs on one machine, one after another, each with channels of its own
(`Session`). `Reachable` is every machine that comes up on the way, within a run or between runs.

What holds of a new machine and is kept by every move holds of all of them (`Reachable.of_moves`).
-/

namespace Brainfuck

/-- The machine of a run, under way or ended. -/
def Progress.machine : Progress → Machine
  | .running r => r.machine
  | .ended r _ => r.machine

/-- How a run has ended, if it has. -/
def Progress.outcome? : Progress → Option Outcome
  | .running _ => none
  | .ended _ o => some o

namespace Run

/-- The run `r` comes to its end as `r'`, with the outcome `o`. -/
def Ends (r r' : Run) (o : Outcome) : Prop := ∃ n, r.iterate n = .ended r' o

/-- The run `r` never ends. -/
def Diverges (r : Run) : Prop := ∀ n, ∃ r', r.iterate n = .running r'

end Run

/-- A call of the machine: the channels, and whether executed instructions are logged. -/
structure Call where
  console : Console
  traced : Bool

/-- The run of a machine that a call begins. -/
def Call.start (c : Call) (m : Machine) : Run := .start m c.console c.traced

/-- One machine is run once for each call, and every run comes to its end, as listed. -/
inductive Session : Machine → List Call → List (Run × Outcome) → Prop
  | nil (m : Machine) : Session m [] []
  | cons {m : Machine} {c : Call} {calls : List Call} {r : Run} {o : Outcome}
      {ends : List (Run × Outcome)} : (c.start m).Ends r o → Session r.machine calls ends →
      Session m (c :: calls) ((r, o) :: ends)

/-- The machines that come up when a program is run: the new one, and with each machine those of
every run of it, after any number of instructions. -/
inductive Reachable (p : Program) (l : Limits) : Machine → Prop
  | new : Reachable p l (.new p l)
  | run {m : Machine} (c : Call) (n : Nat) : Reachable p l m →
      Reachable p l ((c.start m).iterate n).machine

variable {p : Program} {l : Limits} {m : Machine} {r r' r₁ r₂ : Run} {o o₁ o₂ : Outcome}

namespace Run

/-! ### Iteration -/

lemma iterate_succ_of_running (h : r.advance = .running r') (n : Nat) :
    r.iterate (n + 1) = r'.iterate n := by
  rw [iterate, h]

lemma iterate_succ_of_ended (h : r.advance = .ended r' o) (n : Nat) :
    r.iterate (n + 1) = .ended r' o := by
  rw [iterate, h]

/-- After the end nothing changes. -/
lemma iterate_of_le {n k : Nat} (h : r.iterate n = .ended r' o) (hk : n ≤ k) :
    r.iterate k = .ended r' o := by
  induction n generalizing r k with
  | zero => cases h
  | succ n ih =>
    obtain ⟨k, rfl⟩ : ∃ k', k = k' + 1 := ⟨k - 1, by omega⟩
    cases ha : r.advance with
    | running r₁ =>
      rw [iterate_succ_of_running ha] at h ⊢
      exact ih h (by omega)
    | ended r₁ o₁ =>
      rw [iterate_succ_of_ended ha] at h ⊢
      exact h

lemma ends_of_running (h : r.advance = .running r₁) : r.Ends r' o ↔ r₁.Ends r' o := by
  constructor
  · rintro ⟨n, hn⟩
    exact ⟨n, by rw [← iterate_succ_of_running h, iterate_of_le hn (by omega)]⟩
  · rintro ⟨n, hn⟩
    exact ⟨n + 1, by rw [iterate_succ_of_running h, hn]⟩

lemma ends_of_ended (h : r.advance = .ended r₁ o₁) : r.Ends r' o ↔ r' = r₁ ∧ o = o₁ := by
  constructor
  · rintro ⟨n, hn⟩
    have h1 := iterate_succ_of_ended h n
    rw [iterate_of_le hn (by omega)] at h1
    cases h1
    exact ⟨rfl, rfl⟩
  · rintro ⟨rfl, rfl⟩
    exact ⟨1, iterate_succ_of_ended h 0⟩

lemma exists_ends_of_outcome? {n : Nat} (h : (r.iterate n).outcome? = some o) :
    ∃ r', r.Ends r' o := by
  cases hn : r.iterate n with
  | running r' => simp [hn, Progress.outcome?] at h
  | ended r' o' =>
    rw [hn, Progress.outcome?, Option.some.injEq] at h
    exact ⟨r', n, h ▸ hn⟩

/-- Instructions are made one after another. -/
lemma iterate_add_of_running {n : Nat} (h : r.iterate n = .running r₁) (k : Nat) :
    r.iterate (n + k) = r₁.iterate k := by
  induction n generalizing r with
  | zero =>
    cases h
    rw [Nat.zero_add]
  | succ n ih =>
    rw [Nat.succ_add]
    cases ha : r.advance with
    | running r₂ =>
      rw [iterate_succ_of_running ha] at h ⊢
      exact ih h
    | ended r₂ o₂ =>
      rw [iterate_succ_of_ended ha] at h
      cases h

lemma ends_of_iterate {n : Nat} (h : r.iterate n = .running r₁) :
    r.Ends r' o ↔ r₁.Ends r' o := by
  constructor
  · rintro ⟨k, hk⟩
    exact ⟨k, by rw [← iterate_add_of_running h, iterate_of_le hk (by omega)]⟩
  · rintro ⟨k, hk⟩
    exact ⟨n + k, by rw [iterate_add_of_running h, hk]⟩

/-- A run is traced from its beginning or not at all. -/
lemma traced_of_iterate {n : Nat} (h : r.iterate n = .running r') : r'.traced = r.traced := by
  induction n generalizing r with
  | zero =>
    cases h
    rfl
  | succ n ih =>
    cases ha : r.advance with
    | running r₁ =>
      rw [iterate_succ_of_running ha] at h
      rw [ih h, traced_of_advance ha]
    | ended r₁ o =>
      rw [iterate_succ_of_ended ha] at h
      cases h

/-- A run that ends has come to the instruction that ends it. -/
theorem ends_iff_exists_last : r.Ends r' o ↔
    ∃ n r₀, r.iterate n = .running r₀ ∧ r₀.advance = .ended r' o := by
  constructor
  · rintro ⟨n, hn⟩
    induction n generalizing r with
    | zero => cases hn
    | succ n ih =>
      cases ha : r.advance with
      | running r₁ =>
        rw [iterate_succ_of_running ha] at hn
        obtain ⟨k, r₀, hk, hlast⟩ := ih hn
        exact ⟨k + 1, r₀, by rw [iterate_succ_of_running ha, hk], hlast⟩
      | ended r₁ o₁ =>
        rw [iterate_succ_of_ended ha] at hn
        cases hn
        exact ⟨0, r, rfl, ha⟩
  · rintro ⟨n, r₀, hn, hlast⟩
    exact (ends_of_iterate hn).mpr ((ends_of_ended hlast).mpr ⟨rfl, rfl⟩)

/-- A run ends in one way at most. -/
theorem Ends.unique (h₁ : r.Ends r₁ o₁) (h₂ : r.Ends r₂ o₂) : r₁ = r₂ ∧ o₁ = o₂ := by
  obtain ⟨n, hn⟩ := h₁
  obtain ⟨k, hk⟩ := h₂
  have h1 := iterate_of_le hn (Nat.le_max_left n k)
  rw [iterate_of_le hk (Nat.le_max_right n k)] at h1
  cases h1
  exact ⟨rfl, rfl⟩

/-- A run that does not end goes on for ever. -/
theorem diverges_iff : r.Diverges ↔ ¬ ∃ r' o, r.Ends r' o := by
  constructor
  · rintro h ⟨r', o, n, hn⟩
    obtain ⟨r₁, h₁⟩ := h n
    rw [hn] at h₁
    cases h₁
  · intro h n
    cases hn : r.iterate n with
    | running r' => exact ⟨r', rfl⟩
    | ended r' o => exact absurd ⟨r', o, n, hn⟩ h

/-! ### What moves keep -/

/-- What moves keep is kept by any number of instructions. -/
theorem iterate_of_moves {P : Machine → Prop} (hin : ∀ m, P m → m.tape.InRange)
    (hmoves : ∀ m m', P m → m.Moves m' → P m') (n : Nat) (h : P r.machine) :
    P (r.iterate n).machine := by
  induction n generalizing r with
  | zero => exact h
  | succ n ih =>
    cases ha : r.advance with
    | running r' =>
      rw [iterate_succ_of_running ha]
      exact ih (hmoves _ _ h (moves_of_advance ha))
    | ended r' o =>
      rw [iterate_succ_of_ended ha]
      show P r'.machine
      rw [(stops_of_advance (hin _ h) ha).1]
      exact h

/-- A run that ends has come to a machine that stops. -/
theorem stops_of_ends {P : Machine → Prop} (hin : ∀ m, P m → m.tape.InRange)
    (hmoves : ∀ m m', P m → m.Moves m' → P m') (h : P r.machine) (he : r.Ends r' o) :
    P r'.machine ∧ r'.machine.Stops o := by
  obtain ⟨n, hn⟩ := he
  induction n generalizing r with
  | zero => cases hn
  | succ n ih =>
    cases ha : r.advance with
    | running r₁ =>
      rw [iterate_succ_of_running ha] at hn
      exact ih (hmoves _ _ h (moves_of_advance ha)) hn
    | ended r₁ o₁ =>
      rw [iterate_succ_of_ended ha] at hn
      cases hn
      obtain ⟨hm, hs⟩ := stops_of_advance (hin _ h) ha
      rw [hm]
      exact ⟨h, hs⟩

end Run

/-- **What holds of a new machine and is kept by every move** holds of every machine that comes
up. -/
theorem Reachable.of_moves {P : Machine → Prop} (hnew : P (.new p l))
    (hin : ∀ m, P m → m.tape.InRange) (hmoves : ∀ m m', P m → m.Moves m' → P m')
    (h : Reachable p l m) : P m := by
  induction h with
  | new => exact hnew
  | run c n _ ih => exact Run.iterate_of_moves hin hmoves n ih

/-- The machines that the runs of a session leave are among them. -/
theorem Session.reachable {calls : List Call} {ends : List (Run × Outcome)}
    (hs : Session m calls ends) (h : Reachable p l m) : ∀ e ∈ ends, Reachable p l e.1.machine := by
  induction hs with
  | nil m => simp
  | @cons m c calls r o ends hr _ ih =>
    have hm : Reachable p l r.machine := by
      obtain ⟨n, hn⟩ := hr
      have := Reachable.run c n h
      rwa [hn] at this
    intro e he
    rcases List.mem_cons.mp he with rfl | he
    · exact hm
    · exact ih hm e he

end Brainfuck
