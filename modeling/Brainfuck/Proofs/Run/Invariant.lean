import Brainfuck.Proofs.Run.Session

/-!
The invariant of a machine (`Machine.Sound`): its stack of loops is a function of the text before
the next instruction, namely the stack of the loops that are open there, whatever jumps have led to
that place.

A `[` that is passed over jumps across balanced text, and a `]` that repeats its loop goes back to
the place at which the stack was the same; so every move keeps the invariant (`Moves.sound`), and
every machine that comes up has it (`Reachable.sound`). In particular its stack holds the unmatched
`[` of the text before it, and its top is what the backward search would find.
-/

namespace Brainfuck

/-- The invariant of a machine that runs `p` within the limits `l`. -/
structure Machine.Sound (p : Program) (l : Limits) (m : Machine) : Prop where
  program : m.program = p
  ip_le : m.ip ≤ p.size
  /-- The stack holds the loops that are open before the next instruction. -/
  loops : openLoops p.toList m.ip = some m.loops.toList
  capacity : m.loops.capacity = l.stackDepth
  depth_le : m.loops.depth ≤ l.stackDepth
  length : m.tape.length = l.tapeSize
  inRange : m.tape.InRange

lemma LoopStack.one_le_depth {s : LoopStack} (h : ¬ s.isEmpty) : 1 ≤ s.depth := by
  refine Nat.pos_of_ne_zero fun h0 => h ?_
  simpa [isEmpty, depth] using h0

namespace Machine

variable {p : Program} {l : Limits} {m m' : Machine} {i j : Nat}

theorem sound_new (p : Program) (l : Limits) : (new p l).Sound p l where
  program := rfl
  ip_le := Nat.zero_le _
  loops := rfl
  capacity := rfl
  depth_le := Nat.zero_le _
  length := Tape.length_blank _
  inRange := by
    unfold Tape.InRange
    show 0 < (Tape.blank l.tapeSize).length ∨ (Tape.blank l.tapeSize).length = 0 ∧ 0 = 0
    omega

/-! ### What moves leave alone -/

lemma Moves.program_eq (h : m.Moves m') : m'.program = m.program := by
  cases h with
  | @act a _ _ => cases a <;> rfl
  | store b _ _ => rfl

lemma Moves.capacity_eq (h : m.Moves m') : m'.loops.capacity = m.loops.capacity := by
  cases h with
  | @act a _ _ => cases a <;> rfl
  | store b _ _ => rfl

lemma Moves.length_eq (h : m.Moves m') : m'.tape.length = m.tape.length := by
  cases h with
  | @act a _ _ =>
    cases a with
    | increment | decrement => exact Tape.length_modify m.tape _
    | _ => rfl
  | store b _ _ => exact Tape.length_set m.tape b

/-! ### What moves keep -/

lemma Moves.inRange (h : m.Moves m') (hin : m.tape.InRange) : m'.tape.InRange := by
  have hlen := h.length_eq
  unfold Tape.InRange at hin ⊢
  rw [hlen]
  cases h with
  | @act a hn _ =>
    have hc := hn ▸ m.chooses_next
    cases hc with
    | right _ hlt => exact Or.inl hlt
    | left _ h0 =>
      show m.tape.pointer - 1 < m.tape.length ∨ m.tape.length = 0 ∧ m.tape.pointer - 1 = 0
      omega
    | increment | decrement =>
      show (m.tape.modify _).pointer < _ ∨ _ ∧ (m.tape.modify _).pointer = 0
      rwa [Tape.pointer_modify]
    | _ => exact hin
  | store b _ _ =>
    show (m.tape.set b).pointer < _ ∨ _ ∧ (m.tape.set b).pointer = 0
    rwa [Tape.pointer_set]

lemma Moves.pointer_lt (h : m.Moves m') (hlt : m.tape.pointer < m.tape.length) :
    m'.tape.pointer < m'.tape.length := by
  have hlen := h.length_eq
  rcases h.inRange (Or.inl hlt) with hin | ⟨h0, -⟩
  · exact hin
  · omega

/-- On a tape with cells the pointer is on one of them. -/
lemma Sound.pointer_lt (h : m.Sound p l) (hl : 1 ≤ l.tapeSize) :
    m.tape.pointer < m.tape.length := by
  have hlen := h.length
  rcases h.inRange with hlt | ⟨h0, -⟩
  · exact hlt
  · omega

lemma Moves.depth_le (h : m.Moves m') (hd : m.loops.depth ≤ m.loops.capacity) :
    m'.loops.depth ≤ m.loops.capacity := by
  cases h with
  | @act a hn _ =>
    have hc := hn ▸ m.chooses_next
    cases hc with
    | enter _ _ _ hlt =>
      show (m.loops.add m.ip).depth ≤ _
      rw [← LoopStack.length_toList, LoopStack.toList_add, List.length_append]
      exact hlt
    | leave =>
      show m.loops.drop.depth ≤ _
      rw [← LoopStack.length_toList, LoopStack.toList_drop, List.length_dropLast]
      exact (Nat.sub_le _ _).trans hd
    | _ => exact hd
  | store b _ _ => exact hd

/-- The stack of a machine that is not empty is what is below the top, and the top. -/
lemma toList_eq_of_top? {s : LoopStack} (h : s.top? = some i) :
    s.toList = s.toList.dropLast ++ [i] := by
  rw [LoopStack.top?_eq] at h
  obtain ⟨below, hs⟩ := List.getLast?_eq_some_iff.mp h
  rw [hs, List.dropLast_concat]

/-- **Every move keeps the stack the one of its place.** -/
theorem Moves.openLoops_eq (h : m.Moves m') (hip : m.ip ≤ m.program.size)
    (hs : openLoops m.program.toList m.ip = some m.loops.toList) :
    m'.ip ≤ m.program.size ∧ openLoops m.program.toList m'.ip = some m'.loops.toList := by
  -- an instruction that is no bracket has the same loops open behind it
  have hplain {a : Instr} (hb : m.program.instr? m.ip = some a) (ho : a ≠ .loopStart)
      (hc : a ≠ .loopEnd) : m.ip + 1 ≤ m.program.size ∧
        openLoops m.program.toList (m.ip + 1) = some m.loops.toList := by
    rw [instr?_eq] at hb
    refine ⟨?_, by rw [openLoops_plain (by simpa [hb]) (by simpa [hb]), hs]⟩
    rw [Program.size_eq]
    exact lt_of_instrAt hb
  cases h with
  | @act a hn _ =>
    have hc := hn ▸ m.chooses_next
    cases hc with
    | pass hlt hb =>
      rw [instr?_eq] at hb
      refine ⟨hlt, ?_⟩
      show openLoops m.program.toList (m.ip + 1) = some m.loops.toList
      rw [openLoops_plain (by simp [hb]) (by simp [hb]), hs]
    | right hb | left hb | increment hb | decrement hb | emit hb | accept hb =>
      exact hplain hb (by simp) (by simp)
    | enter hb =>
      rw [instr?_eq] at hb
      refine ⟨?_, ?_⟩
      · rw [Program.size_eq]
        exact lt_of_instrAt hb
      · show openLoops m.program.toList (m.ip + 1) = some (m.loops.add m.ip).toList
        rw [openLoops_loopStart hs hb, LoopStack.toList_add]
    | @skip j hb _ hj =>
      -- the jump crosses balanced text, and the `]` closes what the `[` has opened
      rw [instr?_eq] at hb
      obtain ⟨hij, hcl, hbal⟩ := Program.loopEnd?_eq_some_iff.mp hj
      refine ⟨?_, ?_⟩
      · rw [Program.size_eq]
        exact lt_of_instrAt hcl
      · show openLoops m.program.toList (j + 1) = some m.loops.toList
        have hinner := openLoops_of_balanced (openLoops_loopStart hs hb) hij hbal
        exact openLoops_loopEnd hinner hcl
    | @again i _ hb ht =>
      rw [toList_eq_of_top? ht] at hs
      obtain ⟨hlt, -, -, -, -⟩ := openLoops_concat hs
      refine ⟨?_, ?_⟩
      · show i + 1 ≤ m.program.size
        omega
      · show openLoops m.program.toList (i + 1) = some m.loops.toList
        rw [openLoops_top hs, ← toList_eq_of_top? ht]
    | @leave i hb ht =>
      rw [instr?_eq] at hb
      rw [toList_eq_of_top? ht] at hs
      refine ⟨?_, ?_⟩
      · rw [Program.size_eq]
        exact lt_of_instrAt hb
      · show openLoops m.program.toList (m.ip + 1) = some m.loops.drop.toList
        rw [openLoops_loopEnd hs hb, LoopStack.toList_drop]
    | _ => simp_all [Action.goesOn]
  | store b hn _ =>
    have hc := hn ▸ m.chooses_next
    cases hc with
    | accept hb => exact hplain hb (by simp) (by simp)

/-- **Every move keeps the invariant.** -/
theorem Moves.sound (h : m.Moves m') (hm : m.Sound p l) : m'.Sound p l := by
  obtain ⟨rfl, hip, hs, hcap, hd, hlen, hin⟩ := hm
  obtain ⟨hip', hs'⟩ := h.openLoops_eq hip hs
  rw [← hcap] at hd
  exact ⟨h.program_eq, hip', hs', h.capacity_eq.trans hcap, hcap ▸ h.depth_le hd,
    h.length_eq.trans hlen, h.inRange hin⟩

end Machine

variable {p : Program} {l : Limits} {m : Machine}

/-- **Every machine that comes up has the invariant.** -/
theorem Reachable.sound (h : Reachable p l m) : m.Sound p l :=
  h.of_moves (Machine.sound_new p l) (fun _ hm => hm.inRange) fun _ _ hm h => h.sound hm

/-- A run keeps the invariant after any number of instructions. -/
lemma Machine.Sound.of_iterate {r : Run} (hm : r.machine.Sound p l) (n : Nat) :
    (r.iterate n).machine.Sound p l :=
  Run.iterate_of_moves (fun _ hm => hm.inRange) (fun _ _ hm h => h.sound hm) n hm

/-- A run that ends has come to a machine with the invariant, which stops there. -/
lemma Machine.Sound.of_ends {r r' : Run} {o : Outcome} (hm : r.machine.Sound p l)
    (he : r.Ends r' o) : r'.machine.Sound p l ∧ r'.machine.Stops o :=
  Run.stops_of_ends (fun _ hm => hm.inRange) (fun _ _ hm h => h.sound hm) hm he

/-- On a tape with cells a run that ends has come to the end of its program or has failed. -/
lemma Machine.Sound.done_or_failed {r r' : Run} {o : Outcome} (hm : r.machine.Sound p l)
    (hl : 1 ≤ l.tapeSize) (he : r.Ends r' o) : o = .done ∨ ∃ f, o = .failed f := by
  obtain ⟨hm', hstop⟩ := hm.of_ends he
  cases hstop with
  | halt => exact Or.inl rfl
  | fail | write | read => exact Or.inr ⟨_, rfl⟩
  | crash hc =>
    have hlt := hm'.pointer_lt hl
    rw [← Tape.isSome_get?, hc] at hlt
    cases hlt

/-- The stack, bottom to top, is the list of the unmatched `[` before the next instruction. -/
theorem Machine.Sound.toList_loops (h : m.Sound p l) :
    m.loops.toList = unmatchedOpenings (p.toList.take m.ip) :=
  openLoops_eq_unmatchedOpenings h.loops (by rw [← Program.size_eq]; exact h.ip_le)

/-- On the stack are positions of `[`. -/
lemma Machine.Sound.instr?_top {i : Nat} (h : m.Sound p l) (ht : m.loops.top? = some i) :
    p.instr? i = some .loopStart := by
  rw [LoopStack.top?_eq] at ht
  rw [instr?_eq]
  exact (instrAt_of_mem_openLoops h.loops (List.mem_of_getLast? ht)).2

/-- The top of the stack is what the backward search from the next instruction finds. -/
theorem Machine.Sound.partner_backward (h : m.Sound p l) :
    p.partner m.ip .backward = .ok m.loops.top? := by
  rw [Program.partner, if_pos h.ip_le, Program.loopStart?_eq h.loops, LoopStack.top?_eq]

/-- **The state of a machine at any time**, of any program, within any limits, after any number of
instructions in any runs: the text before the next instruction has no unmatched `]`, the stack is
the list of its unmatched `[`, and the pointer is on a tape of unchanged length. The top of the
stack is what the backward search finds, so a `]` repeats or leaves the loop it belongs to. -/
theorem Reachable.state (h : Reachable p l m) :
    m.program = p ∧ m.ip ≤ p.size ∧
    (∀ j, ¬ UnmatchedClosing (p.toList.take m.ip) j) ∧
    m.loops.toList = unmatchedOpenings (p.toList.take m.ip) ∧
    m.loops.depth ≤ l.stackDepth ∧
    m.tape.length = l.tapeSize ∧
    (m.tape.pointer < m.tape.length ∨ m.tape.length = 0 ∧ m.tape.pointer = 0) ∧
    p.partner m.ip .backward = .ok m.loops.top? := by
  have hs := h.sound
  exact ⟨hs.program, hs.ip_le, not_unmatchedClosing_of_openLoops hs.loops, hs.toList_loops,
    hs.depth_le, hs.length, hs.inRange, hs.partner_backward⟩

/-- Inside the inner loop of `+[[>+]`, behind its `[` for the second time. -/
theorem Reachable.state_repeated :
    let p : Program := .ofList [0x2b, 0x5b, 0x5b, 0x3e, 0x2b, 0x5d]
    let m := ((Call.start ⟨.ofScripts [] [] [], false⟩ (.new p ⟨4, 10⟩)).iterate 6).machine
    Reachable p ⟨4, 10⟩ m ∧ m.ip = 3 ∧ m.loops.toList = [1, 2] ∧
      unmatchedOpenings (p.toList.take 3) = [1, 2] ∧ p.partner 3 .backward = .ok (some 2) := by
  intro p m
  have hr : Reachable p ⟨4, 10⟩ m := .run _ 6 .new
  have hip : m.ip = 3 := by decide +kernel
  have hloops : m.loops.toList = [1, 2] := by decide +kernel
  obtain ⟨-, -, -, hs, -, -, -, hb⟩ := Reachable.state hr
  rw [hip] at hs hb
  rw [LoopStack.top?_eq, hloops] at hb
  exact ⟨hr, hip, hloops, hs ▸ hloops, hb⟩

end Brainfuck
