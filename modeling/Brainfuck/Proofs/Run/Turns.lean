import Brainfuck.Proofs.Run.Invariant

/-!
How long a run can last. A run takes its turns one after another, each of them at one position of the
program, and only a `]` that repeats its loop goes back (`Machine.Moves.ip_lt`); a `[` that passes over
its loop goes further on like everything else. Between two repetitions each position is therefore come
to once at most, and a run that repeats its loops `k` times in all comes to its end, after at most
`k + 1` times as many turns as its program has bytes (`Reachable.turns_le`).
-/

namespace Brainfuck

/-- The machine is at a `]` inside a loop, on a cell that is not zero: it goes back to the start of the
loop. -/
def Machine.repeats (m : Machine) : Bool :=
  m.program.instr? m.ip = some .loopEnd && m.loops.top?.isSome && m.tape.get?.any (· ≠ 0)

/-- The machines with which the turns of a run begin, up to `n` of them. At the end of the program there
is no turn to take; the turn in which a run fails is one. -/
def Run.turns : Nat → Run → List Machine
  | 0, _ => []
  | n + 1, r =>
    if r.machine.ip < r.machine.program.size then
      r.machine ::
        match r.advance with
        | .running r' => turns n r'
        | .ended _ _ => []
    else
      []

/-- One instruction more may be counted if the run goes on, and none if it ends. -/
def Progress.Counts (steps : Nat) : Progress → Prop
  | .running r => r.steps ≤ steps + 1
  | .ended r _ => r.steps = steps

variable {p : Program} {l : Limits} {m m' : Machine} {r r' : Run} {o : Outcome} {n k : Nat}

/-! ### One turn -/

namespace Machine

/-- A machine that repeats a loop is one that goes back to it. -/
lemma repeats_iff : m.repeats ↔ ∃ i, m.next = .again i := by
  constructor
  · intro h
    simp only [repeats, Bool.and_eq_true, decide_eq_true_eq] at h
    obtain ⟨⟨hb, ht⟩, hcell⟩ := h
    obtain ⟨i, ht⟩ := Option.isSome_iff_exists.mp ht
    obtain ⟨b, hcell, h0⟩ := (Option.any_eq_true _ _).mp hcell
    exact ⟨i, (Chooses.again hb ht hcell (of_decide_eq_true h0)).next_eq (by simp)⟩
  · rintro ⟨i, hn⟩
    have hc := hn ▸ m.chooses_next
    cases hc with
    | again hb ht hcell h0 => simp [repeats, hb, ht, hcell, h0]

/-- A machine that can move has not come to the end of its program. -/
lemma Moves.ip_lt_size (h : m.Moves m') : m.ip < m.program.size := by
  by_contra hi
  have hnext := next_of_size_le (Nat.le_of_not_lt hi)
  cases h with
  | @act a hn hg =>
    rw [hn] at hnext
    subst hnext
    split at hg <;> cases hg
  | store b hn _ =>
    rw [hn] at hnext
    split at hnext <;> cases hnext

/-- **Whatever repeats no loop goes further on.** -/
theorem Moves.ip_lt (h : m.Moves m') (hr : ¬ m.repeats) : m.ip < m'.ip := by
  cases h with
  | @act a hn _ =>
    have hc := hn ▸ m.chooses_next
    cases hc with
    | @skip j _ _ hj =>
      obtain ⟨hij, -, -⟩ := Program.loopEnd?_eq_some_iff.mp hj
      exact Nat.lt_succ_of_lt hij
    | again => exact absurd (repeats_iff.mpr ⟨_, hn⟩) hr
    | _ => exact Nat.lt_succ_self m.ip
  | store b _ _ => exact Nat.lt_succ_self m.ip

end Machine

namespace Run

lemma counts_record {c : Console} {traced : Bool} {steps ip : Nat} {log : Array Event} {a : Instr} :
    (record m c traced steps log ip a).Counts steps := by
  unfold record
  split
  · split
    · exact le_rfl
    · rfl
  · exact le_rfl

/-- A turn counts one instruction at most, and none when it ends the run. -/
lemma counts_advance (r : Run) : r.advance.Counts r.steps := by
  obtain ⟨m, c, traced, steps, log⟩ := r
  rw [advance]
  cases hn : m.next with
  | halt | fail f | crash => rfl
  | pass => exact Nat.le_succ steps
  | emit b =>
    dsimp only
    split
    · exact counts_record
    · rfl
  | accept =>
    dsimp only
    split
    · exact counts_record
    · split_ifs
      · exact counts_record
      · rfl
    · rfl
  | right | left | increment | decrement | enter | skip j | again i | leave => exact counts_record

/-! ### All turns -/

lemma turns_of_size_le (hi : r.machine.program.size ≤ r.machine.ip) (n : Nat) : r.turns n = [] := by
  cases n with
  | zero => rfl
  | succ n => rw [turns, if_neg (Nat.not_lt.mpr hi)]

lemma turns_of_running (h : r.advance = .running r') (n : Nat) :
    r.turns (n + 1) = r.machine :: r'.turns n := by
  rw [turns, if_pos (moves_of_advance h).ip_lt_size, h]

lemma turns_of_ended (hi : r.machine.ip < r.machine.program.size) (h : r.advance = .ended r' o)
    (n : Nat) : r.turns (n + 1) = [r.machine] := by
  rw [turns, if_pos hi, h]

/-- Each iteration that a run goes on after is one turn. -/
lemma length_turns (h : r.iterate n = .running r') : (r.turns n).length = n := by
  induction n generalizing r with
  | zero => rfl
  | succ n ih =>
    cases ha : r.advance with
    | running r₁ =>
      rw [iterate_succ_of_running ha] at h
      rw [turns_of_running ha, List.length_cons, ih h]
    | ended r₁ o =>
      rw [iterate_succ_of_ended ha] at h
      cases h

/-- After its end a run takes no more turns. -/
lemma turns_of_le (h : r.iterate n = .ended r' o) (hk : n ≤ k) : r.turns k = r.turns n := by
  induction n generalizing r k with
  | zero => cases h
  | succ n ih =>
    obtain ⟨k, rfl⟩ : ∃ k', k = k' + 1 := ⟨k - 1, by omega⟩
    rcases Nat.lt_or_ge r.machine.ip r.machine.program.size with hi | hi
    swap
    · rw [turns_of_size_le hi, turns_of_size_le hi]
    cases ha : r.advance with
    | running r₁ =>
      rw [iterate_succ_of_running ha] at h
      rw [turns_of_running ha, turns_of_running ha, ih h (by omega)]
    | ended r₁ o₁ => rw [turns_of_ended hi ha, turns_of_ended hi ha]

/-- What moves keep holds at the beginning of every turn. -/
lemma forall_mem_turns {P : Machine → Prop} (hmoves : ∀ m m', P m → m.Moves m' → P m')
    (h : P r.machine) (n : Nat) : ∀ m ∈ r.turns n, P m := by
  induction n generalizing r with
  | zero => simp [turns]
  | succ n ih =>
    intro m hm
    rw [turns] at hm
    split_ifs at hm
    · rcases List.mem_cons.mp hm with rfl | hm
      · exact h
      · cases ha : r.advance with
        | running r' =>
          rw [ha] at hm
          exact ih (hmoves _ _ h (moves_of_advance ha)) m hm
        | ended r' o => simp [ha] at hm
    · simp at hm

/-- A run has not executed more instructions than it has taken turns. -/
lemma steps_le_of_iterate (h : r.iterate n = .ended r' o) :
    r'.steps ≤ r.steps + (r.turns n).length := by
  induction n generalizing r with
  | zero => cases h
  | succ n ih =>
    have hcount := r.counts_advance
    cases ha : r.advance with
    | running r₁ =>
      rw [ha] at hcount
      have hcount : r₁.steps ≤ r.steps + 1 := hcount
      rw [iterate_succ_of_running ha] at h
      rw [turns_of_running ha, List.length_cons]
      have := ih h
      omega
    | ended r₁ o₁ =>
      rw [ha] at hcount
      rw [iterate_succ_of_ended ha] at h
      cases h
      exact Nat.le_add_right_of_le (Nat.le_of_eq hcount)

/-- **Turns and repetitions.** Where a run has come to, together with the turns that it has taken, is
within one length of the program for each repetition, and one more. -/
theorem length_turns_add_ip_le (h : r.machine.Sound p l) (n : Nat) :
    (r.turns n).length + r.machine.ip ≤ ((r.turns n).countP Machine.repeats + 1) * p.size := by
  have hip := h.ip_le
  have hprogram := h.program
  induction n generalizing r with
  | zero => simpa [turns] using hip
  | succ n ih =>
    rcases Nat.lt_or_ge r.machine.ip r.machine.program.size with hi | hi
    swap
    · simpa [turns_of_size_le hi] using hip
    rw [hprogram] at hi
    cases ha : r.advance with
    | running r' =>
      have hmoves := moves_of_advance ha
      have hsound := hmoves.sound h
      have := ih hsound hsound.ip_le hsound.program
      rw [turns_of_running ha, List.length_cons]
      by_cases hr : r.machine.repeats
      · -- the run starts anew from wherever it is, with one more length of the program to go through
        rw [List.countP_cons_of_pos hr, Nat.succ_mul _ p.size]
        omega
      · rw [List.countP_cons_of_neg hr]
        have := hmoves.ip_lt hr
        omega
    | ended r' o =>
      rw [turns_of_ended (hprogram ▸ hi) ha]
      refine le_trans ?_ (Nat.le_mul_of_pos_left p.size (Nat.succ_pos _))
      simp only [List.length_singleton]
      omega

end Run

/-- **Only repetitions can make a run last.** From any machine that comes up, a run takes at most
`k + 1` times as many turns as its program has bytes while it repeats loops `k` times; so a run that
does not repeat loops more than `k` times comes to its end, and has executed no more instructions than
that. A program without `]` comes to its end within its length. -/
theorem Reachable.turns_le (hm : Reachable p l r.machine) :
    (∀ n, (r.turns n).length ≤ ((r.turns n).countP Machine.repeats + 1) * p.size) ∧
    (∀ n r', r.iterate n = .running r' → (r.turns n).length = n) ∧
    (∀ k, (∀ n, (r.turns n).countP Machine.repeats ≤ k) →
      ∃ r' o, r.Ends r' o ∧ (∀ n, (r.turns n).length ≤ (k + 1) * p.size) ∧
        r'.steps ≤ r.steps + (k + 1) * p.size) ∧
    ((∀ i, p.instr? i ≠ some .loopEnd) → ∃ r' o, r.Ends r' o ∧ r'.steps ≤ r.steps + p.size) := by
  have hle (n : Nat) : (r.turns n).length ≤ ((r.turns n).countP Machine.repeats + 1) * p.size :=
    (Nat.le_add_right _ _).trans (Run.length_turns_add_ip_le hm.sound n)
  have hends (k : Nat) (hk : ∀ n, (r.turns n).countP Machine.repeats ≤ k) :
      ∃ r' o, r.Ends r' o ∧ (∀ n, (r.turns n).length ≤ (k + 1) * p.size) ∧
        r'.steps ≤ r.steps + (k + 1) * p.size := by
    have hbound (n : Nat) : (r.turns n).length ≤ (k + 1) * p.size :=
      (hle n).trans (Nat.mul_le_mul_right _ (Nat.succ_le_succ (hk n)))
    cases hn : r.iterate ((k + 1) * p.size + 1) with
    | running r' =>
      have := hbound ((k + 1) * p.size + 1)
      rw [Run.length_turns hn] at this
      omega
    | ended r' o =>
      exact ⟨r', o, ⟨_, hn⟩, hbound,
        (Run.steps_le_of_iterate hn).trans (Nat.add_le_add_left (hbound _) _)⟩
  refine ⟨hle, fun n r' => Run.length_turns, hends, fun hnone => ?_⟩
  -- without a `]` no turn repeats a loop
  have hzero (n : Nat) : (r.turns n).countP Machine.repeats = 0 := by
    refine List.countP_eq_zero.mpr fun m' hm' hr => ?_
    have hsound := Run.forall_mem_turns (fun _ _ hm h => h.sound hm) hm.sound n m' hm'
    obtain ⟨i, hn⟩ := Machine.repeats_iff.mp hr
    have hc := hn ▸ m'.chooses_next
    cases hc with
    | again hb => exact hnone _ (hsound.program ▸ hb)
  obtain ⟨r', o, he, -, hsteps⟩ := hends 0 fun n => (hzero n).le
  exact ⟨r', o, he, by simpa using hsteps⟩

/-- `+[>+]` on three cells goes back twice and fails in its ninth turn, of fifteen that it could take. -/
theorem Reachable.turns_le_failed :
    let p : Program := .ofList [0x2b, 0x5b, 0x3e, 0x2b, 0x5d]
    let r := (Call.mk (.ofScripts [] [] []) true).start (.new p ⟨3, 1⟩)
    Reachable p ⟨3, 1⟩ r.machine ∧ (∀ n, (r.turns n).countP Machine.repeats ≤ 2) ∧
      (r.turns 9).length = 9 ∧ 9 ≤ ((r.turns 9).countP Machine.repeats + 1) * p.size ∧
      ∃ r' o, r.Ends r' o ∧ r'.steps ≤ 15 := by
  intro p r
  have hturns : (r.turns 9).length = 9 := by decide +kernel
  have hcount : ∀ n ≤ 9, (r.turns n).countP Machine.repeats ≤ 2 := by decide +kernel
  have ho : (r.iterate 9).outcome? = some (.failed (.outOfBounds 2 2 .high)) := by decide +kernel
  have hrepeats (n : Nat) : (r.turns n).countP Machine.repeats ≤ 2 := by
    rcases Nat.le_total n 9 with hn | hn
    · exact hcount n hn
    · cases h9 : r.iterate 9 with
      | running r' => simp [h9, Progress.outcome?] at ho
      | ended r' o =>
        rw [Run.turns_of_le h9 hn]
        exact hcount 9 le_rfl
  have hr : Reachable p ⟨3, 1⟩ r.machine := .new
  obtain ⟨hle, -, hends, -⟩ := Reachable.turns_le hr
  obtain ⟨r', o, he, -, hsteps⟩ := hends 2 hrepeats
  have h9 := hle 9
  rw [hturns] at h9
  exact ⟨hr, hrepeats, hturns, h9, r', o, he, hsteps⟩

end Brainfuck
