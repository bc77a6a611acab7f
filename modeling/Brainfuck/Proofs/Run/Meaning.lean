import Brainfuck.Proofs.Run.Invariant

/-!
What an outcome says about the brackets of the whole text. A run sees brackets one at a time, along
one path, and passes over loops unread; still, as its stack is the one of its place
(`Machine.Sound`) and its jumps cross balanced text only, each outcome settles a question about the
text: `done` that it is balanced, and every failure over brackets which bracket is at fault.

The facts about a machine that is about to stop come first; `Session.outcome_brackets` puts them
together.
-/

namespace Brainfuck

variable {p : Program} {l : Limits} {m : Machine} {t : List UInt8} {i j n : Nat}

/-! ### Balanced text has no bracket without a partner -/

lemma Balanced.not_unmatchedClosing (h : Balanced t) (j : Nat) : ¬ UnmatchedClosing t j :=
  forall_not_unmatchedClosing_iff.mpr (balanced_iff_depthAt.mp h).1 j

lemma Balanced.not_unmatchedOpening (h : Balanced t) (i : Nat) : ¬ UnmatchedOpening t i := by
  obtain ⟨hn, hc⟩ := balanced_iff_depthAt.mp h
  intro hi
  obtain ⟨ho, hk⟩ := unmatchedOpening_iff.mp hi
  have hlt := hk t.length (lt_of_instrAt ho)
  rw [depthAt_of_length_le le_rfl, hc] at hlt
  have := hn i
  omega

lemma mem_unmatchedOpenings : i ∈ unmatchedOpenings t ↔ UnmatchedOpening t i := by
  rw [unmatchedOpenings, List.mem_filter, List.mem_range, decide_eq_true_iff]
  exact ⟨And.right, fun h => ⟨lt_of_instrAt h.1, h⟩⟩

lemma Balanced.unmatchedOpenings_eq_nil (h : Balanced t) : unmatchedOpenings t = [] := by
  refine List.eq_nil_iff_forall_not_mem.mpr fun i hi => ?_
  exact h.not_unmatchedOpening i (mem_unmatchedOpenings.mp hi)

namespace Machine.Sound

/-! ### A machine that is about to stop -/

/-- At the end of the program the stack is that of the whole text. -/
lemma openLoops_of_size_le (h : m.Sound p l) (hi : p.size ≤ m.ip) :
    openLoops p.toList p.toList.length = some m.loops.toList := by
  have hip : m.ip = p.toList.length := by
    rw [← Program.size_eq]
    exact le_antisymm h.ip_le hi
  rw [← hip]
  exact h.loops

/-- A run that reaches the end has run a balanced text. -/
lemma balanced_of_halt (h : m.Sound p l) (hn : m.next = .halt) : Balanced p.toList := by
  have hc := hn ▸ m.chooses_next
  cases hc with
  | halt hi he =>
    rw [h.program] at hi
    have hs := h.openLoops_of_size_le hi
    have hnil : m.loops.toList = [] := by simpa [LoopStack.isEmpty, LoopStack.toList] using he
    rw [hnil, openLoops_eq_nil_iff, List.take_length] at hs
    exact hs

/-- Loops that are left open are the unmatched `[` of the text, and all else has its partner. -/
lemma of_unterminated (h : m.Sound p l) (hn : m.next = .fail (.unterminated n)) :
    (∀ j, ¬ UnmatchedClosing p.toList j) ∧ n = (unmatchedOpenings p.toList).length ∧ 1 ≤ n := by
  have hc := hn ▸ m.chooses_next
  cases hc with
  | unterminated hi he =>
    rw [h.program] at hi
    have hs := h.openLoops_of_size_le hi
    have hclosing := not_unmatchedClosing_of_openLoops hs
    have hopening := openLoops_eq_unmatchedOpenings hs le_rfl
    rw [List.take_length] at hclosing hopening
    exact ⟨hclosing, by rw [← hopening, LoopStack.length_toList], LoopStack.one_le_depth he⟩

/-- A `]` that finds the stack empty is the first that is unmatched. -/
lemma of_closing (h : m.Sound p l) (hn : m.next = .fail (.unmatched i .closing)) :
    UnmatchedClosing p.toList i ∧ (∀ j, UnmatchedClosing p.toList j → i ≤ j) ∧
      Balanced (p.toList.take i) := by
  have hc := hn ▸ m.chooses_next
  cases hc with
  | closing hb ht =>
    rw [h.program, instr?_eq] at hb
    have hs := h.loops
    rw [LoopStack.top?_eq, List.getLast?_eq_none_iff] at ht
    rw [ht] at hs
    have hd := depthAt_succ p.toList m.ip
    have hlen := openLoops_length hs
    rw [hb, Instr.weight] at hd
    rw [List.length_nil] at hlen
    refine ⟨unmatchedClosing_iff.mpr ⟨hb, fun k hk => ?_⟩, fun j hj => ?_,
      openLoops_eq_nil_iff.mp hs⟩
    · have := depthAt_nonneg_of_openLoops hs hk
      omega
    · by_contra hlt
      have hneg := (unmatchedClosing_iff.mp hj).2 0 (Nat.zero_le j)
      have := depthAt_nonneg_of_openLoops hs (k := j + 1) (by omega)
      rw [depthAt_zero] at hneg
      omega

/-- A `[` at which the search fails is unmatched. -/
lemma of_opening (h : m.Sound p l) (hn : m.next = .fail (.unmatched i .opening)) :
    UnmatchedOpening p.toList i := by
  have hc := hn ▸ m.chooses_next
  cases hc with
  | opening hb _ hj =>
    rw [h.program] at hb hj
    rw [instr?_eq] at hb
    exact Program.unmatchedOpening_of_loopEnd?_eq_none hb hj

/-- A `[` at which the stack is full has as many unmatched `[` before it as the stack can hold. -/
lemma of_overflow (h : m.Sound p l) (hn : m.next = .fail (.stackOverflow i n)) :
    instrAt p.toList i = some .loopStart ∧ n = l.stackDepth ∧
      (unmatchedOpenings (p.toList.take i)).length = l.stackDepth ∧
      depthAt p.toList (i + 1) = l.stackDepth + 1 := by
  have hc := hn ▸ m.chooses_next
  cases hc with
  | overflow hb _ _ hfull =>
    rw [h.program, instr?_eq] at hb
    have hd := depthAt_succ p.toList m.ip
    have hlen := openLoops_length h.loops
    rw [hb, Instr.weight] at hd
    have hle := h.depth_le
    rw [h.capacity] at hfull
    rw [LoopStack.length_toList] at hlen
    refine ⟨hb, h.capacity, ?_, by omega⟩
    rw [← h.toList_loops, LoopStack.length_toList]
    exact le_antisymm hle hfull

end Machine.Sound

/-! ### Sessions -/

/-- Every run of a session has come to a machine with the invariant, which stops there. -/
lemma Session.sound_stops {calls : List Call} {ends : List (Run × Outcome)}
    (hs : Session m calls ends) (h : m.Sound p l) :
    ∀ e ∈ ends, e.1.machine.Sound p l ∧ e.1.machine.Stops e.2 := by
  induction hs with
  | nil m => simp
  | @cons m c calls r o ends hr _ ih =>
    have hend := Machine.Sound.of_ends (r := c.start m) h hr
    intro e he
    rcases List.mem_cons.mp he with rfl | he
    · exact hend
    · exact ih hend.1 e he

/-- **What the outcome of a run says about the text**, for every run of every session. Balanced
text never fails over a bracket, and not over the stack unless it nests deeper than that. -/
theorem Session.outcome_brackets {calls : List Call} {ends : List (Run × Outcome)} {r : Run}
    {o : Outcome} (hs : Session (.new p l) calls ends) (he : (r, o) ∈ ends) :
    (o = .done → Balanced p.toList) ∧
    (∀ n, o = .failed (.unterminated n) → (∀ j, ¬ UnmatchedClosing p.toList j) ∧
      n = (unmatchedOpenings p.toList).length ∧ 1 ≤ n) ∧
    (∀ i, o = .failed (.unmatched i .closing) → UnmatchedClosing p.toList i ∧
      (∀ j, UnmatchedClosing p.toList j → i ≤ j) ∧ Balanced (p.toList.take i)) ∧
    (∀ i, o = .failed (.unmatched i .opening) → UnmatchedOpening p.toList i) ∧
    (∀ i d, o = .failed (.stackOverflow i d) → instrAt p.toList i = some .loopStart ∧
      d = l.stackDepth ∧ (unmatchedOpenings (p.toList.take i)).length = l.stackDepth) ∧
    (Balanced p.toList → (∀ i b, o ≠ .failed (.unmatched i b)) ∧
      (∀ n, o ≠ .failed (.unterminated n)) ∧
      (nesting p.toList ≤ l.stackDepth → ∀ i d, o ≠ .failed (.stackOverflow i d))) := by
  obtain ⟨hm, hstop⟩ : r.machine.Sound p l ∧ r.machine.Stops o :=
    hs.sound_stops (Machine.sound_new p l) _ he
  have hfail {f : Failure} (ho : o = .failed f) (hio : ∀ i f', f ≠ .io i f') :
      r.machine.next = .fail f := by
    subst ho
    exact hstop.next_eq_fail hio
  refine ⟨?_, fun n ho => hm.of_unterminated (hfail ho (by simp)),
    fun i ho => hm.of_closing (hfail ho (by simp)), fun i ho => hm.of_opening (hfail ho (by simp)),
    fun i d ho => ?_, fun hb => ⟨?_, ?_, ?_⟩⟩
  · rintro rfl
    cases hstop with
    | halt hn => exact hm.balanced_of_halt hn
  · obtain ⟨h1, h2, h3, -⟩ := hm.of_overflow (hfail ho (by simp))
    exact ⟨h1, h2, h3⟩
  · intro i b ho
    have hn := hfail ho (by simp)
    cases b with
    | opening => exact hb.not_unmatchedOpening i (hm.of_opening hn)
    | closing => exact hb.not_unmatchedClosing i (hm.of_closing hn).1
  · intro n ho
    obtain ⟨-, hn, hpos⟩ := hm.of_unterminated (hfail ho (by simp))
    rw [hb.unmatchedOpenings_eq_nil, List.length_nil] at hn
    omega
  · intro hnest i d ho
    obtain ⟨-, -, -, hd⟩ := hm.of_overflow (hfail ho (by simp))
    have := depthAt_le_nesting p.toList (i + 1)
    omega

/-- The last `]` of `+[-]]` has no partner, and that is what its run ends with. -/
theorem Session.outcome_brackets_closing :
    let p : Program := .ofList [0x2b, 0x5b, 0x2d, 0x5d, 0x5d]
    let c : Call := ⟨.ofScripts [] [] [], true⟩
    ∃ r, Session (.new p ⟨4, 10⟩) [c] [(r, .failed (.unmatched 4 .closing))] ∧
      UnmatchedClosing p.toList 4 ∧ Balanced (p.toList.take 4) := by
  intro p c
  have ho : ((c.start (.new p ⟨4, 10⟩)).iterate 5).outcome? =
      some (.failed (.unmatched 4 .closing)) := by decide +kernel
  obtain ⟨r, hr⟩ := Run.exists_ends_of_outcome? ho
  have hs : Session (.new p ⟨4, 10⟩) [c] [(r, .failed (.unmatched 4 .closing))] :=
    .cons hr (.nil _)
  obtain ⟨-, -, hc, -⟩ := Session.outcome_brackets hs (List.mem_singleton.mpr rfl)
  obtain ⟨h1, -, h2⟩ := hc 4 rfl
  exact ⟨r, hs, h1, h2⟩

end Brainfuck
