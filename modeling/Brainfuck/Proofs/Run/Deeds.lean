import Brainfuck.Proofs.Run.Advance

/-!
The instructions that a run executes, one after another (`Run.Executes`). Each is kept with the run
before it and after it, so that what an instruction does can be said of every one of them, and then,
by induction along the list, of the whole run. Comments are passed over and do not count.

A run that ends has executed some instructions and has then come to the one that ends it, which is
not among them (`Run.Ends.exists_executes`).
-/

namespace Brainfuck

/-- An executed instruction, with the run before it and after it and the cell it has left. -/
structure Deed where
  before : Run
  after : Run
  instr : Instr
  cell : UInt8
  pointer_lt : before.machine.tape.pointer < before.machine.tape.length
  advance : before.advance = .running after
  instr?_eq : before.machine.program.instr? before.machine.ip = some instr
  get?_eq : after.machine.tape.get? = some cell

/-- The run `r` executes the instructions `ds`, one after another, and comes to `r'`. -/
inductive Run.Executes : Run → List Deed → Run → Prop
  | nil (r : Run) : Executes r [] r
  | comment {r r₁ r' : Run} {ds : List Deed} : r.advance = .running r₁ →
      r.machine.program.instr? r.machine.ip = none → Executes r₁ ds r' → Executes r ds r'
  | deed (d : Deed) {r' : Run} {ds : List Deed} : Executes d.after ds r' →
      Executes d.before (d :: ds) r'

variable {r r' last : Run} {ds : List Deed} {o : Outcome}

namespace Run

/-! ### Runs and their instructions -/

lemma Executes.exists_iterate (h : r.Executes ds r') : ∃ n, r.iterate n = .running r' := by
  induction h with
  | nil => exact ⟨0, rfl⟩
  | comment ha _ _ ih =>
    obtain ⟨n, hn⟩ := ih
    exact ⟨n + 1, by rw [iterate_succ_of_running ha, hn]⟩
  | deed d _ ih =>
    obtain ⟨n, hn⟩ := ih
    exact ⟨n + 1, by rw [iterate_succ_of_running d.advance, hn]⟩

lemma Executes.ends (h : r.Executes ds last) (hlast : last.advance = .ended r' o) :
    r.Ends r' o := by
  obtain ⟨n, hn⟩ := h.exists_iterate
  exact ends_iff_exists_last.mpr ⟨n, last, hn, hlast⟩

lemma exists_executes {n : Nat} (hlt : r.machine.tape.pointer < r.machine.tape.length)
    (h : r.iterate n = .running r') : ∃ ds, r.Executes ds r' := by
  induction n generalizing r with
  | zero =>
    cases h
    exact ⟨[], .nil _⟩
  | succ n ih =>
    cases ha : r.advance with
    | running r₁ =>
      rw [iterate_succ_of_running ha] at h
      have hlt₁ := (moves_of_advance ha).pointer_lt hlt
      obtain ⟨ds, hds⟩ := ih hlt₁ h
      cases hb : r.machine.program.instr? r.machine.ip with
      | none => exact ⟨ds, .comment ha hb hds⟩
      | some a =>
        obtain ⟨b, hcell⟩ := Tape.exists_get? hlt₁
        exact ⟨_ :: ds, .deed ⟨r, r₁, a, b, hlt, ha, hb, hcell⟩ hds⟩
    | ended r₁ o =>
      rw [iterate_succ_of_ended ha] at h
      cases h

/-- **A run that ends** has executed some instructions and come to the one that ends it. -/
theorem Ends.exists_executes (hlt : r.machine.tape.pointer < r.machine.tape.length)
    (he : r.Ends r' o) : ∃ ds last, r.Executes ds last ∧ last.advance = .ended r' o := by
  obtain ⟨n, last, hn, hlast⟩ := ends_iff_exists_last.mp he
  obtain ⟨ds, hds⟩ := Run.exists_executes hlt hn
  exact ⟨ds, last, hds, hlast⟩

/-! ### What holds at every instruction -/

/-- What moves keep holds before every instruction and at the end of them. -/
theorem Executes.of_moves {P : Machine → Prop} (hmoves : ∀ m m', P m → m.Moves m' → P m')
    (h : r.Executes ds r') (hr : P r.machine) :
    P r'.machine ∧ ∀ d ∈ ds, P d.before.machine := by
  induction h with
  | nil => exact ⟨hr, by simp⟩
  | comment ha _ _ ih => exact ih (hmoves _ _ hr (moves_of_advance ha))
  | deed d _ ih =>
    obtain ⟨hlast, hds⟩ := ih (hmoves _ _ hr (moves_of_advance d.advance))
    refine ⟨hlast, fun d' hd' => ?_⟩
    rcases List.mem_cons.mp hd' with rfl | hd'
    · exact hr
    · exact hds d' hd'

lemma Executes.pointer_lt (h : r.Executes ds r')
    (hlt : r.machine.tape.pointer < r.machine.tape.length) :
    r'.machine.tape.pointer < r'.machine.tape.length :=
  (h.of_moves (fun _ _ hm hmoves => hmoves.pointer_lt hm) hlt).1

end Run

/-! ### One instruction, or one comment -/

lemma Deed.moves (d : Deed) : d.before.machine.Moves d.after.machine :=
  Run.moves_of_advance d.advance

/-- An instruction is counted, and told of if the run is traced. -/
lemma Deed.after_eq (d : Deed) :
    d.after.traced = d.before.traced ∧ d.after.steps = d.before.steps + 1 ∧
      d.after.log = if d.before.traced then d.before.log.push (.executed d.before.steps
        d.before.machine.ip d.after.machine.tape.pointer d.cell d.instr) else d.before.log := by
  obtain ⟨-, hgo⟩ := Run.step_of_advance_running d.pointer_lt d.advance
  have htold : d.before.executed? d.after.machine = some (.executed d.before.steps
      d.before.machine.ip d.after.machine.tape.pointer d.cell d.instr) := by
    simp only [Run.executed?, d.instr?_eq, d.get?_eq]
  unfold Run.goOn at hgo
  simp only [htold] at hgo
  have htraced := congrArg Run.traced hgo
  have hsteps := congrArg Run.steps hgo
  have hlog := congrArg Run.log hgo
  exact ⟨htraced, hsteps, hlog⟩

/-- A comment takes the machine one position further and does nothing else. -/
lemma Run.eq_of_comment (hb : r.machine.program.instr? r.machine.ip = none)
    (h : r.advance = .running r') : r' = { r with machine := r.machine.forward } := by
  obtain ⟨m, c, traced, steps, log⟩ := r
  rcases Nat.lt_or_ge m.ip m.program.size with hlt | hge
  · rw [advance, Machine.next_of_comment hlt hb] at h
    cases h
    rfl
  · rw [advance, Machine.next_of_size_le hge] at h
    by_cases he : m.loops.isEmpty
    · rw [if_pos he] at h
      cases h
    · rw [if_neg he] at h
      cases h

end Brainfuck
