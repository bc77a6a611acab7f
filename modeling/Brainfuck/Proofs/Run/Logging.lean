import Brainfuck.Proofs.Run.Advance

/-!
Whether executed instructions are logged makes no difference to a run, as long as there is a cell: an
instruction that is executed leaves the pointer on one (`Machine.Chooses.isSome_get?`), so the entry of
the log only reads what is there.

The exception is an input that finds the end of the input, on a tape without cells. It is executed, as
it leaves a cell alone that it never looks at, and the entry of the log looks at that cell: the traced
run is abandoned there, and the other one goes on (`Run.Starves`). Nothing else sets the two apart
(`Reachable.end_alike_iff`).
-/

namespace Brainfuck

namespace Run

/-- Runs of the same machine on the same channels; what they have counted and told may differ. -/
def Alike (r s : Run) : Prop := s.machine = r.machine ∧ s.console = r.console

/-- Both runs end, with the same outcome and in the same state, or neither does. -/
def EndAlike (r s : Run) : Prop := ∀ o m c,
  (∃ r', r.Ends r' o ∧ r'.machine = m ∧ r'.console = c) ↔
    ∃ s', s.Ends s' o ∧ s'.machine = m ∧ s'.console = c

/-- The run is about to find the end of its input, which leaves alone a cell that is not there. -/
def Starves (r : Run) : Prop :=
  r.machine.tape.get? = none ∧ r.machine.next = .accept ∧ r.console.take.1 = .ok none

end Run

variable {p : Program} {l : Limits} {m m' : Machine} {r r' s s' : Run} {o : Outcome} {n : Nat}

/-! ### A tape without cells -/

lemma Tape.InRange.eq_zero {t : Tape} (hin : t.InRange) (h : t.get? = none) :
    t.length = 0 ∧ t.pointer = 0 := by
  have hlt : ¬ t.pointer < t.length := by
    rw [← Tape.isSome_get?, h]
    exact Bool.false_ne_true
  exact hin.resolve_left hlt

/-- Without cells nothing is done but to go on, past a comment or an input. -/
lemma Machine.Chooses.of_get?_eq_none {a : Action} (h : m.Chooses a) (hin : m.tape.InRange)
    (hget : m.tape.get? = none) (ha : a.goesOn) : a = .pass ∨ a = .accept := by
  by_contra! hne
  obtain ⟨hlen, hptr⟩ := hin.eq_zero hget
  cases h with
  | right _ hlt => omega
  | left _ h0 => exact h0 hptr
  | increment _ hc | decrement _ hc => simp [hget] at hc
  | emit _ hc | enter _ hc | skip _ hc | again _ _ hc | leave _ _ hc => simp [hget] at hc
  | pass => exact hne.1 rfl
  | accept => exact hne.2 rfl
  | halt | unterminated | high | low | overflow | opening | closing | crash => cases ha

/-- So a move is one position further on. -/
lemma Machine.Moves.eq_forward (h : m.Moves m') (hin : m.tape.InRange)
    (hget : m.tape.get? = none) : m' = m.forward := by
  cases h with
  | @act a hn hg =>
    subst hn
    rcases m.chooses_next.of_get?_eq_none hin hget hg with h | h <;> rw [h] <;> rfl
  | store b _ hc => simp [hget] at hc

namespace Run

/-- Without cells a run comes to no place before the one that it has come to. -/
lemma ip_le_of_ends (hin : r.machine.tape.InRange) (hget : r.machine.tape.get? = none)
    (h : r.Ends r' o) : r.machine.ip ≤ r'.machine.ip := by
  have hkept := stops_of_ends (P := fun m => m.tape.InRange ∧ m.tape.get? = none ∧
    r.machine.ip ≤ m.ip) (fun _ hm => hm.1) ?_ ⟨hin, hget, le_rfl⟩ h
  · exact hkept.1.2.2
  · rintro m m' ⟨hin, hget, hip⟩ hmoves
    rw [hmoves.eq_forward hin hget]
    exact ⟨hin, hget, Nat.le_succ_of_le hip⟩

/-! ### One instruction -/

lemma not_starves (hlt : r.machine.tape.pointer < r.machine.tape.length) : ¬ r.Starves := by
  intro h
  rw [← Tape.isSome_get?, h.1] at hlt
  cases hlt

lemma Alike.starves_iff (h : r.Alike s) : s.Starves ↔ r.Starves := by
  unfold Starves
  rw [h.1, h.2]

/-- **The log does not matter** to an instruction, unless it is the one that a traced run is abandoned
at. -/
theorem advance_alike (hin : r.machine.tape.InRange) (h : r.Alike s) (hs : ¬ r.Starves) :
    Progress.Matches Alike (fun e e' => e.1.Alike e'.1 ∧ e'.2 = e.2) r.advance s.advance := by
  obtain ⟨hm, hc⟩ := h
  rcases hin with hlt | hzero
  · rw [advance_eq hlt, advance_eq (hm ▸ hlt), hm, hc]
    cases r.machine.step r.console with
    | goes m c => exact .running ⟨by simp, by simp⟩
    | stops o c => exact .ended ⟨⟨hm, rfl⟩, rfl⟩
  · have hget : r.machine.tape.get? = none := by
      rw [← Option.not_isSome_iff_eq_none, Tape.isSome_get?]
      omega
    obtain ⟨m, c, traced, steps, log⟩ := r
    obtain ⟨m', c', traced', steps', log'⟩ := s
    obtain rfl : m' = m := hm
    obtain rfl : c' = c := hc
    have hch := m'.chooses_next
    rw [advance, advance]
    cases hn : m'.next with
    | halt | fail f | crash => exact .ended ⟨⟨rfl, rfl⟩, rfl⟩
    | pass => exact .running ⟨rfl, rfl⟩
    | accept =>
      have hget : m'.tape.get? = none := hget
      rcases htake : c'.take with ⟨_ | _ | b, c₁⟩
      · exact .ended ⟨⟨rfl, rfl⟩, rfl⟩
      · exact absurd ⟨hget, hn, by rw [htake]⟩ hs
      · simp only [hget, Option.isSome_none, Bool.false_eq_true, if_false]
        exact .ended ⟨⟨rfl, rfl⟩, rfl⟩
    | emit b | right | left | increment | decrement | enter | skip j | again i | leave =>
      rw [hn] at hch
      rcases hch.of_get?_eq_none (Or.inr hzero) hget rfl with h | h <;> cases h

lemma advance_of_starves (h : r.Starves) (ht : r.traced) : r.advance =
    .ended ⟨r.machine, r.console.take.2, r.traced, r.steps, r.log⟩ .crashed := by
  obtain ⟨m, c, traced, steps, log⟩ := r
  obtain ⟨hget, hn, htake⟩ := h
  obtain rfl : traced = true := ht
  dsimp only at hget hn htake
  rw [advance, hn]
  rcases hc : c.take with ⟨answer, c'⟩
  rw [hc] at htake
  obtain rfl : answer = .ok none := htake
  simp only [record, if_true, hget]

lemma advance_of_starves_untraced (h : r.Starves) (ht : r.traced = false) :
    ∃ r', r.advance = .running r' ∧ r'.machine = r.machine.forward := by
  obtain ⟨m, c, traced, steps, log⟩ := r
  obtain ⟨hget, hn, htake⟩ := h
  obtain rfl : traced = false := ht
  dsimp only at hn htake
  rw [advance, hn]
  rcases hc : c.take with ⟨answer, c'⟩
  rw [hc] at htake
  obtain rfl : answer = .ok none := htake
  exact ⟨_, rfl, rfl⟩

/-! ### Whole runs -/

/-- A run goes along with one that looks the same and never starves. -/
lemma accompanies_alike (p : Program) (l : Limits) :
    Accompanies (fun r s => r.machine.Sound p l ∧ r.Alike s ∧
        ∀ n s', s.iterate n = .running s' → ¬ s'.Starves)
      (fun e e' => e.1.Alike e'.1 ∧ e'.2 = e.2) (fun _ => 0) where
  advance := by
    rintro r s ⟨hm, ha, hns⟩
    left
    have hs : ¬ r.Starves := by
      rw [← ha.starves_iff]
      exact hns 0 s rfl
    have hadv := advance_alike hm.inRange ha hs
    generalize hr : r.advance = x, hs' : s.advance = y at hadv
    cases hadv with
    | running h =>
      refine .running ⟨(moves_of_advance hr).sound hm, h, fun n s' hn => ?_⟩
      exact hns (n + 1) s' (by rw [iterate_succ_of_running hs', hn])
    | ended h => exact .ended h

/-- Until it starves for the first time, a run looks the same as another one. -/
lemma exists_iterate_alike (hm : r.machine.Sound p l) (ha : r.Alike s)
    (hn : s.iterate n = .running s')
    (hns : ∀ k < n, ∀ s₁, s.iterate k = .running s₁ → ¬ s₁.Starves) :
    ∃ r', r.iterate n = .running r' ∧ r'.Alike s' := by
  induction n generalizing r s with
  | zero =>
    cases hn
    exact ⟨r, rfl, ha⟩
  | succ n ih =>
    have hs : ¬ r.Starves := by
      rw [← ha.starves_iff]
      exact hns 0 (Nat.succ_pos n) s rfl
    have hadv := advance_alike hm.inRange ha hs
    generalize hr : r.advance = x, hs' : s.advance = y at hadv
    cases hadv with
    | running h =>
      rw [iterate_succ_of_running hs'] at hn
      rw [iterate_succ_of_running hr]
      refine ih ((moves_of_advance hr).sound hm) h hn fun k hk s₁ hs₁ => ?_
      exact hns (k + 1) (Nat.succ_lt_succ hk) s₁ (by rw [iterate_succ_of_running hs', hs₁])
    | ended h =>
      rw [iterate_succ_of_ended hs'] at hn
      cases hn

/-- Runs that look the same end alike if they never starve. -/
lemma endAlike_of_not_starves (hm : r.machine.Sound p l) (ha : r.Alike s)
    (hns : ∀ n s', s.iterate n = .running s' → ¬ s'.Starves) : r.EndAlike s := by
  intro o m c
  constructor
  · rintro ⟨r', he, rfl, rfl⟩
    obtain ⟨s', _, hs', ⟨hm', hc'⟩, rfl⟩ := (accompanies_alike p l).ends ⟨hm, ha, hns⟩ he
    exact ⟨s', hs', hm', hc'⟩
  · rintro ⟨s', he, rfl, rfl⟩
    obtain ⟨r', _, hr', ⟨hm', hc'⟩, rfl⟩ := (accompanies_alike p l).exists_ends ⟨hm, ha, hns⟩ he
    exact ⟨r', hr', hm'.symm, hc'.symm⟩

/-- Where a run starves for the first time, it is abandoned if it is traced. -/
lemma ends_crashed_of_starves (hm : r.machine.Sound p l) (ha : r.Alike s) (ht : r.traced)
    (hn : s.iterate n = .running s') (hs : s'.Starves)
    (hns : ∀ k < n, ∀ s₁, s.iterate k = .running s₁ → ¬ s₁.Starves) :
    ∃ r', r.Ends r' .crashed ∧ r'.machine = s'.machine ∧ r'.console = s'.console.take.2 := by
  obtain ⟨r₁, hr₁, ha₁⟩ := exists_iterate_alike hm ha hn hns
  have ht₁ : r₁.traced := (traced_of_iterate hr₁).trans ht
  have hadv := advance_of_starves (ha₁.starves_iff.mp hs) ht₁
  refine ⟨_, (ends_of_iterate hr₁).mpr ((ends_of_ended hadv).mpr ⟨rfl, rfl⟩), ?_, ?_⟩
  · exact ha₁.1.symm
  · rw [ha₁.2]

/-- An untraced run that has starved ends further on, if it ends. -/
lemma ip_lt_of_ends_of_starves (hm : s.machine.Sound p l) (ht : s.traced = false)
    (hn : s.iterate n = .running s') (hs : s'.Starves) (he : s.Ends r' o) :
    s'.machine.ip < r'.machine.ip := by
  have hm' : s'.machine.Sound p l := by
    have hsound := hm.of_iterate n
    rwa [hn] at hsound
  obtain ⟨s₁, hadv, hs₁⟩ := advance_of_starves_untraced hs ((traced_of_iterate hn).trans ht)
  rw [ends_of_iterate hn, ends_of_running hadv] at he
  have hle := ip_le_of_ends (hs₁ ▸ hm'.inRange) (hs₁ ▸ hs.1) he
  rw [hs₁] at hle
  exact hle

end Run

/-- **Logging changes nothing but an input at the end of the input of a tape without cells.** From any
machine that comes up, on any channels, the run whose executed instructions are logged and the one
whose are not end alike iff the latter never starves; on a tape with cells it never does. Where it
starves first, the traced run is abandoned, having read and moved no further. -/
theorem Reachable.end_alike_iff (h : Reachable p l m) (c : Console) :
    let traced := Call.start ⟨c, true⟩ m
    let plain := Call.start ⟨c, false⟩ m
    (traced.EndAlike plain ↔ ∀ n s, plain.iterate n = .running s → ¬ s.Starves) ∧
    (1 ≤ l.tapeSize → traced.EndAlike plain) ∧
    ∀ n s, plain.iterate n = .running s → s.Starves →
      (∀ k < n, ∀ s', plain.iterate k = .running s' → ¬ s'.Starves) →
      ∃ r, traced.Ends r .crashed ∧ r.machine = s.machine ∧ r.console = s.console.take.2 := by
  intro traced plain
  have hm : m.Sound p l := h.sound
  have ha : traced.Alike plain := ⟨rfl, rfl⟩
  have hcrash (n : Nat) (s : Run) (hn : plain.iterate n = .running s) (hs : s.Starves) :=
    Run.ends_crashed_of_starves (r := traced) hm ha rfl hn hs
  refine ⟨⟨fun halike => ?_, Run.endAlike_of_not_starves hm ha⟩, fun hl => ?_, hcrash⟩
  · -- from the first place at which it starves, the plain run goes further than the traced one
    classical
    by_contra! hstarves
    obtain ⟨s, hn, hs⟩ := Nat.find_spec hstarves
    have hfirst := fun k (hk : k < Nat.find hstarves) => Nat.find_min hstarves hk
    obtain ⟨r, hr, hrm, -⟩ := hcrash _ s hn hs fun k hk s' hs' hst => hfirst k hk ⟨s', hs', hst⟩
    obtain ⟨s', hs', hsm, -⟩ := (halike _ _ _).mp ⟨r, hr, hrm, rfl⟩
    have hlt := Run.ip_lt_of_ends_of_starves (s := plain) hm rfl hn hs hs'
    rw [hsm] at hlt
    exact Nat.lt_irrefl _ hlt
  · refine Run.endAlike_of_not_starves hm ha fun n s hn hs => ?_
    have hsound := (Reachable.run ⟨c, false⟩ n h).sound
    have hn : (Call.start ⟨c, false⟩ m).iterate n = .running s := hn
    rw [hn] at hsound
    exact Run.not_starves (hsound.pointer_lt hl) hs

/-- Of `,]` on a tape without cells, at the end of the input, the traced run is abandoned at the `,`;
the other one fails at the `]`. -/
theorem Reachable.end_alike_iff_closing :
    let m : Machine := .new (.ofList [0x2c, 0x5d]) ⟨0, 1⟩
    let c : Console := .ofScripts [] [] []
    (∃ s, (Call.start ⟨c, false⟩ m).Ends s (.failed (.unmatched 1 .closing))) ∧
    (∃ r, (Call.start ⟨c, true⟩ m).Ends r .crashed ∧ r.machine = m ∧ r.console = c.take.2) ∧
    ¬ (Call.start ⟨c, true⟩ m).EndAlike (Call.start ⟨c, false⟩ m) := by
  intro m c
  have hs : (Call.start ⟨c, false⟩ m).Starves := ⟨by decide +kernel, by decide +kernel, rfl⟩
  have ho : ((Call.start ⟨c, false⟩ m).iterate 2).outcome? =
      some (.failed (.unmatched 1 .closing)) := by decide +kernel
  obtain ⟨hiff, -, hcrash⟩ := Reachable.end_alike_iff (.new (p := .ofList [0x2c, 0x5d])
    (l := ⟨0, 1⟩)) c
  refine ⟨Run.exists_ends_of_outcome? ho, ?_, fun halike => ?_⟩
  · exact hcrash 0 _ rfl hs fun k hk => absurd hk (Nat.not_lt_zero k)
  · exact hiff.mp halike 0 _ rfl hs

/-- It is not so that any two runs of a machine end alike, traced and not: `,` alone, on a tape without
cells, comes to its end at the end of the input unless it is traced. -/
theorem Run.not_forall_end_alike :
    ¬ ∀ (p : Program) (l : Limits) (m : Machine) (c : Console), Reachable p l m →
      (Call.start ⟨c, true⟩ m).EndAlike (Call.start ⟨c, false⟩ m) := by
  intro h
  have halike := h (.ofList [0x2c]) ⟨0, 1⟩ _ (.ofScripts [] [] []) .new
  have hplain : ((Call.start ⟨.ofScripts [] [] [], false⟩
      (.new (.ofList [0x2c]) ⟨0, 1⟩)).iterate 2).outcome? = some .done := by decide +kernel
  have htraced : ((Call.start ⟨.ofScripts [] [] [], true⟩
      (.new (.ofList [0x2c]) ⟨0, 1⟩)).iterate 1).outcome? = some .crashed := by decide +kernel
  obtain ⟨s, hs⟩ := exists_ends_of_outcome? hplain
  obtain ⟨r, hr⟩ := exists_ends_of_outcome? htraced
  obtain ⟨r', hr', -, -⟩ := (halike _ _ _).mpr ⟨s, hs, rfl, rfl⟩
  cases (hr.unique hr').2

end Brainfuck
