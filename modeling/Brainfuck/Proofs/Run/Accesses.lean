import Brainfuck.Proofs.Run.Advance

/-!
Accesses by index. A run looks up the bytes of its program and the cells of its tape by their
numbers: the byte at the next instruction, the bytes that a search passes, the cell that an
instruction reads or changes, and the cell that is told of when the instruction is done.

A run is abandoned exactly at an access out of range (`Run.crashes_iff`). With limits that are no
violation there is none, in any run of any machine that comes up.
-/

namespace Brainfuck

/-- An access at an index of an array of the given length. -/
structure Access where
  index : Nat
  length : Nat
  deriving DecidableEq

/-- The array has the index. -/
def Access.InRange (a : Access) : Prop := a.index < a.length

/-- The access to the current cell. -/
def Tape.access (t : Tape) : Access := ⟨t.pointer, t.length⟩

/-- The accesses of the forward search `Program.scanForward`. -/
def Program.scanAccesses (p : Program) (inner i : Nat) : List Access :=
  if h : i < p.bytes.size then
    match Instr.ofByte? p.bytes[i] with
    | some .loopStart => ⟨i, p.size⟩ :: scanAccesses p (inner + 1) (i + 1)
    | some .loopEnd =>
      match inner with
      | 0 => [⟨i, p.size⟩]
      | inner + 1 => ⟨i, p.size⟩ :: scanAccesses p inner (i + 1)
    | _ => ⟨i, p.size⟩ :: scanAccesses p inner (i + 1)
  else
    []
termination_by p.bytes.size - i

namespace Machine

/-- The accesses by which it is decided what an instruction comes to. -/
def accessesOf (m : Machine) : Instr → List Access
  | .right | .left | .input => []
  | .increment | .decrement | .output => [m.tape.access]
  | .loopStart =>
    m.tape.access :: if m.tape.get? = some 0 then m.program.scanAccesses 0 (m.ip + 1) else []
  | .loopEnd => if m.loops.top? = none then [] else [m.tape.access]

/-- The accesses by which a machine decides what it does next. -/
def accesses (m : Machine) : List Access :=
  if m.ip < m.program.size then
    ⟨m.ip, m.program.size⟩ ::
      match m.program.instr? m.ip with
      | some a => m.accessesOf a
      | none => []
  else
    []

end Machine

namespace Run

/-- The access to the cell in which a byte that was read is stored. -/
def storeAccesses (r : Run) : List Access :=
  match r.machine.next, r.console.take.1 with
  | .accept, .ok (some _) => [r.machine.tape.access]
  | _, _ => []

/-- The access to the cell that is told of when the instruction is done. -/
def traceAccesses (r : Run) : List Access :=
  match r.machine.step r.console with
  | .goes m _ =>
    if r.traced ∧ r.machine.program.instr? r.machine.ip ≠ none then [m.tape.access] else []
  | .stops _ _ => []

/-- The accesses that a run makes for its next instruction. -/
def accesses (r : Run) : List Access :=
  r.machine.accesses ++ (r.storeAccesses ++ r.traceAccesses)

end Run

variable {p : Program} {l : Limits} {m : Machine} {r : Run} {x : Access}

lemma Tape.access_inRange (t : Tape) : t.access.InRange ↔ t.get?.isSome := by
  rw [Tape.isSome_get?]
  rfl

/-! ### Accesses to the program -/

lemma Program.inRange_of_mem_scanAccesses {inner i : Nat} (h : x ∈ p.scanAccesses inner i) :
    x.InRange := by
  fun_induction p.scanAccesses inner i with
  | case1 inner i hi _ ih | case3 i hi _ inner ih | case4 inner i hi _ _ ih =>
    rcases List.mem_cons.mp h with rfl | h
    · exact hi
    · exact ih h
  | case2 i hi _ =>
    obtain rfl := List.mem_singleton.mp h
    exact hi
  | case5 inner i hi => simp at h

/-! ### Accesses to the tape -/

namespace Machine

/-- An instruction needs a cell that is not there iff one of its accesses is out of range. -/
lemma actionOf_eq_crash_iff (a : Instr) :
    m.actionOf a = .crash ↔ ∃ x ∈ m.accessesOf a, ¬ x.InRange := by
  have hsearch : ∀ x ∈ m.program.scanAccesses 0 (m.ip + 1), x.InRange := fun x hx =>
    Program.inRange_of_mem_scanAccesses hx
  have hcell := m.tape.access_inRange
  cases a with
  | right =>
    unfold actionOf accessesOf
    cases m.tape.rightBound? <;> simp
  | left =>
    unfold actionOf accessesOf
    cases m.tape.leftBound? <;> simp
  | input => simp [actionOf, accessesOf]
  | increment | decrement =>
    simp only [actionOf, accessesOf, List.mem_singleton, exists_eq_left, hcell]
    split_ifs <;> simp_all
  | output =>
    simp only [actionOf, accessesOf, List.mem_singleton, exists_eq_left, hcell]
    cases m.tape.get? <;> simp
  | loopStart =>
    simp only [actionOf, accessesOf, List.mem_cons, exists_eq_or_imp, hcell]
    rcases hb : m.tape.get? with _ | b
    · simp
    · by_cases h0 : b = 0
      · subst h0
        simp only [Option.isSome_some, not_true_eq_false, false_or, if_true]
        cases m.program.loopEnd? m.ip <;> simpa using hsearch
      · simp only [h0, if_false, Option.some.injEq]
        split_ifs <;> simp
  | loopEnd =>
    simp only [actionOf, accessesOf]
    rcases m.loops.top? with _ | i
    · simp
    · simp only [reduceCtorEq, if_false, List.mem_singleton, exists_eq_left, hcell]
      rcases m.tape.get? with _ | b
      · simp
      · by_cases h0 : b = 0 <;> simp [h0]

/-- A machine is about to crash iff one of the accesses that decide it is out of range. -/
lemma next_eq_crash_iff : m.next = .crash ↔ ∃ x ∈ m.accesses, ¬ x.InRange := by
  unfold accesses
  by_cases hi : m.ip < m.program.size
  · have hbyte : (⟨m.ip, m.program.size⟩ : Access).InRange := hi
    rw [if_pos hi]
    cases hb : m.program.instr? m.ip with
    | none =>
      rw [next_of_comment hi hb]
      simp [hbyte]
    | some a =>
      rw [next_of_instr hb, actionOf_eq_crash_iff]
      simp [hbyte]
  · rw [if_neg hi, next_of_size_le (Nat.le_of_not_lt hi)]
    split_ifs <;> simp

end Machine

namespace Run

lemma record_crashes_iff {c : Console} {traced : Bool} {steps ip : Nat} {log : Array Event}
    {a : Instr} : (∃ r', record m c traced steps log ip a = .ended r' .crashed) ↔
      traced ∧ ¬ m.tape.access.InRange := by
  rw [Tape.access_inRange]
  unfold record
  cases traced <;> cases m.tape.get? <;> simp

/-- **A run is abandoned** at an instruction iff one of its accesses is out of range. -/
theorem crashes_iff :
    (∃ r', r.advance = .ended r' .crashed) ↔ ∃ x ∈ r.accesses, ¬ x.InRange := by
  have hcrash := r.machine.next_eq_crash_iff
  have hch := r.machine.chooses_next
  obtain ⟨m, c, traced, steps, log⟩ := r
  simp only [accesses, List.mem_append, or_and_right, exists_or]
  rw [← hcrash]
  -- an instruction that is done is told of if the run is traced
  have hdone {s : Machine} {c' : Console} {a : Instr} (hb : m.program.instr? m.ip = some a)
      (hs : m.step c = .goes s.forward c') :
      (∃ r', record s c' traced steps log m.ip a = .ended r' .crashed) ↔
        ∃ x ∈ traceAccesses ⟨m, c, traced, steps, log⟩, ¬ x.InRange := by
    have htape : s.forward.tape = s.tape := rfl
    rw [record_crashes_iff, traceAccesses, hs]
    cases traced <;> simp [hb, htape]
  have hstep := Machine.step.eq_def m c
  generalize hn : m.next = a at hch
  rw [advance]
  simp only [storeAccesses]
  rw [hn] at hstep ⊢
  cases hch with
  | halt | unterminated | high | low | overflow | opening | closing =>
    simp [traceAccesses, hstep]
  | crash => simp
  | pass _ hb => simp [traceAccesses, hstep, hb]
  | @emit b hb =>
    rcases hp : c.put b with ⟨_ | _, c'⟩
    · simp only [hp] at hstep ⊢
      simp [traceAccesses, hstep]
    · simp only [hp] at hstep ⊢
      simpa using hdone hb hstep
  | accept hb =>
    rcases ht : c.take with ⟨_ | _ | b, c'⟩
    · simp only [ht] at hstep
      simp [traceAccesses, hstep]
    · simp only [ht] at hstep
      simpa using hdone hb hstep
    · simp only [ht] at hstep
      have hcell := m.tape.access_inRange
      have hstored := hdone (s := m.store b) hb hstep
      by_cases hc : m.tape.get?.isSome
      · simpa [hc, hcell] using hstored
      · simp [hc, hcell]
  | right hb | left hb | increment hb | decrement hb | enter hb | skip hb | again hb | leave hb =>
    simpa using hdone hb hstep

/-- With the pointer on a cell, every access of an instruction is in range. -/
lemma accesses_inRange_of_lt (hlt : r.machine.tape.pointer < r.machine.tape.length) :
    ∀ x ∈ r.accesses, x.InRange := by
  intro x hx
  unfold accesses at hx
  simp only [List.mem_append] at hx
  rcases hx with hx | hx | hx
  · by_contra hout
    have hch := Machine.next_eq_crash_iff.mpr ⟨x, hx, hout⟩ ▸ r.machine.chooses_next
    cases hch with
    | crash _ hc =>
      rw [← Option.not_isSome_iff_eq_none, Tape.isSome_get?] at hc
      exact hc hlt
  · unfold storeAccesses at hx
    split at hx
    · obtain rfl := List.mem_singleton.mp hx
      exact hlt
    · simp at hx
  · -- the instruction has moved the pointer at most to another cell
    unfold traceAccesses at hx
    split at hx
    · rename_i m' c' hs
      split_ifs at hx
      · obtain rfl := List.mem_singleton.mp hx
        exact (moves_of_step hlt hs).pointer_lt hlt
      · simp at hx
    · simp at hx

end Run

lemma Limits.one_le_tapeSize (hl : l.violation? = none) : 1 ≤ l.tapeSize := by
  unfold violation? at hl
  by_contra h0
  simp [show l.tapeSize = 0 by omega] at hl

/-- **No access is out of range** when the limits are no violation: in any run of a machine that
comes up, traced or not and with any channels, each access that is made for an instruction is at an
index that the program or the tape has. So a run that ends has come to the end of the program or has
failed. -/
theorem Reachable.accesses_inRange (hl : l.violation? = none) (hm : Reachable p l m) (c : Call) :
    (∀ n r, (c.start m).iterate n = .running r → ∀ x ∈ r.accesses, x.InRange) ∧
    ∀ r o, (c.start m).Ends r o → o = .done ∨ ∃ f, o = .failed f := by
  have hrange : ∀ n r, (c.start m).iterate n = .running r → ∀ x ∈ r.accesses, x.InRange := by
    intro n r hn
    have hsound := (Reachable.run c n hm).sound
    rw [hn] at hsound
    exact Run.accesses_inRange_of_lt (hsound.pointer_lt (Limits.one_le_tapeSize hl))
  refine ⟨hrange, fun r o he => ?_⟩
  cases o with
  | done => exact Or.inl rfl
  | failed f => exact Or.inr ⟨f, rfl⟩
  | crashed =>
    obtain ⟨n, r₀, hn, hlast⟩ := Run.ends_iff_exists_last.mp he
    obtain ⟨x, hx, hout⟩ := Run.crashes_iff.mp ⟨r, hlast⟩
    exact absurd (hrange n r₀ hn x hx) hout

/-- `[+],` on one cell looks up two bytes for the search at its `[`; its `,` stores a byte and tells of
the cell. -/
theorem Reachable.accesses_inRange_search :
    let p : Program := .ofList [0x5b, 0x2b, 0x5d, 0x2c]
    let c : Call := ⟨.ofScripts [.byte 7] [] [], true⟩
    let first := c.start (.new p ⟨1, 1⟩)
    first.accesses = [⟨0, 4⟩, ⟨0, 1⟩, ⟨1, 4⟩, ⟨2, 4⟩, ⟨0, 1⟩] ∧ (∀ x ∈ first.accesses, x.InRange) ∧
      ∃ r, first.Ends r .done := by
  intro p c first
  have hl : (⟨1, 1⟩ : Limits).violation? = none := by decide
  obtain ⟨hrange, hends⟩ := Reachable.accesses_inRange hl (.new (p := p)) c
  have ho : (first.iterate 3).outcome? = some .done := by decide +kernel
  exact ⟨by decide +kernel, hrange 0 first rfl, Run.exists_ends_of_outcome? ho⟩

end Brainfuck
