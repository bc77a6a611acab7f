import Brainfuck.Proofs.Run.Advance

/-!
What a run leaves behind when it ends. A failing instruction has done nothing: the machine is the
one that was about to execute it, and the failure points at it. Unless a channel was at fault, the
machine alone has decided that the run ends, so any later run of it ends in the same way, at once and
without a call (`Machine.session_iff_of_outcome?`).

`Reachable.ends_for_good` says both of every machine that comes up.
-/

namespace Brainfuck

variable {p : Program} {l : Limits} {m : Machine} {o : Outcome} {f : Failure}

/-- A run has ended because a read, a write or a flush has failed. -/
def Outcome.isIo : Outcome → Bool
  | .failed (.io _ _) => true
  | _ => false

namespace Machine

/-- The position that a failure points at is the one of the instruction that has failed. -/
lemma Stops.position?_eq (h : m.Stops (.failed f)) :
    (f.position? = some m.ip ∧ ∃ a, m.program.instr? m.ip = some a) ∨
      (f = .unterminated m.loops.depth ∧ m.program.size ≤ m.ip) := by
  cases h with
  | fail hn =>
    have hc := hn ▸ m.chooses_next
    cases hc with
    | unterminated hi he => exact Or.inr ⟨rfl, hi⟩
    | high hb | low hb | overflow hb | opening hb | closing hb => exact Or.inl ⟨rfl, _, hb⟩
  | write _ hn =>
    have hc := hn ▸ m.chooses_next
    cases hc with
    | emit hb => exact Or.inl ⟨rfl, _, hb⟩
  | read _ hn =>
    have hc := hn ▸ m.chooses_next
    cases hc with
    | accept hb => exact Or.inl ⟨rfl, _, hb⟩

/-- A machine that stops, and not for its channels, was about to stop. -/
lemma Stops.outcome?_next (h : m.Stops o) (hlt : m.tape.pointer < m.tape.length)
    (hio : ¬ o.isIo) : m.next.outcome? = some o := by
  cases h with
  | halt hn =>
    rw [hn]
    rfl
  | fail hn =>
    rw [hn]
    rfl
  | write | read => exact absurd rfl hio
  | crash hc =>
    obtain ⟨b, hb⟩ := Tape.exists_get? hlt
    rw [hb] at hc
    cases hc

/-- What a machine decides by itself is no failure of a channel. -/
lemma not_isIo_of_outcome? (h : m.next.outcome? = some o) : ¬ o.isIo := by
  have hc := m.chooses_next
  generalize m.next = a at h hc
  cases hc <;> cases h <;> simp [Outcome.isIo]

/-- **A machine that is about to stop** does so in every run, and in none does it do anything. -/
theorem session_iff_of_outcome? (h : m.next.outcome? = some o)
    (hlt : m.tape.pointer < m.tape.length) {calls : List Call} {ends : List (Run × Outcome)} :
    Session m calls ends ↔ ends = calls.map fun c => ((c.start m).stop o c.console, o) := by
  have hends (c : Call) (r' : Run) (o' : Outcome) :
      (c.start m).Ends r' o' ↔ r' = (c.start m).stop o c.console ∧ o' = o :=
    Run.ends_of_ended (Run.advance_of_stops hlt (step_of_outcome? h c.console))
  induction calls generalizing ends with
  | nil =>
    constructor
    · intro hs
      cases hs
      rfl
    · rintro rfl
      exact .nil m
  | cons c calls ih =>
    constructor
    · intro hs
      cases hs with
      | cons he hs =>
        obtain ⟨rfl, rfl⟩ := (hends c _ _).mp he
        rw [List.map_cons, ih.mp hs]
    · rintro rfl
      exact .cons ((hends c _ _).mpr ⟨rfl, rfl⟩) (ih.mpr rfl)

end Machine

/-- **A run that ends leaves its machine at rest**, whatever machine it has begun with. The machine
is the one that came to the last instruction, to which a failure points; loops left open are found at
the end of the program. If no channel has failed, each later run of that machine, of any number of
them and with any channels, ends with the same outcome and leaves machine and channels as they
were. -/
theorem Reachable.ends_for_good (hm : Reachable p l m) (hl : 1 ≤ l.tapeSize) (c : Call) {r : Run}
    {o : Outcome} (he : (c.start m).Ends r o) :
    o ≠ .crashed ∧
    (∃ n r₀, (c.start m).iterate n = .running r₀ ∧ r₀.advance = .ended r o ∧
      r.machine = r₀.machine) ∧
    (∀ f, o = .failed f →
      (f.position? = some r.machine.ip ∧ ∃ a, p.instr? r.machine.ip = some a) ∨
      (f = .unterminated r.machine.loops.depth ∧ r.machine.ip = p.size)) ∧
    (¬ o.isIo → ∀ calls, (∃ ends, Session r.machine calls ends) ∧
      ∀ ends, Session r.machine calls ends → List.Forall₂ (fun call e =>
        e.2 = o ∧ e.1.machine = r.machine ∧ e.1.console = call.console) calls ends) := by
  obtain ⟨n, r₀, hn, hlast⟩ := Run.ends_iff_exists_last.mp he
  have hr₀ : r₀.machine.Sound p l := by
    have hsound := (Reachable.run c n hm).sound
    rwa [hn] at hsound
  obtain ⟨hmachine, hstops⟩ := Run.stops_of_advance hr₀.inRange hlast
  rw [hmachine]
  have hlt := hr₀.pointer_lt hl
  refine ⟨?_, ⟨n, r₀, hn, hlast, rfl⟩, ?_, ?_⟩
  · rintro rfl
    cases hstops with
    | crash hc =>
      obtain ⟨b, hb⟩ := Tape.exists_get? hlt
      rw [hb] at hc
      cases hc
  · rintro f rfl
    rw [← hr₀.program]
    rcases hstops.position?_eq with hat | ⟨hf, hend⟩
    · exact Or.inl hat
    · refine Or.inr ⟨hf, le_antisymm ?_ hend⟩
      rw [hr₀.program]
      exact hr₀.ip_le
  · intro hio calls
    have hnext := hstops.outcome?_next hlt hio
    refine ⟨⟨_, (Machine.session_iff_of_outcome? hnext hlt).mpr rfl⟩, fun ends hs => ?_⟩
    rw [Machine.session_iff_of_outcome? hnext hlt] at hs
    rw [hs, List.forall₂_map_right_iff]
    exact List.forall₂_same.mpr fun call _ => ⟨rfl, rfl, rfl⟩

/-- The first run of `,<` fails to read, the second one reads a byte and fails at the `<`; so do two
runs more, one of which finds its input at an end. -/
theorem Reachable.ends_for_good_low :
    let p : Program := .ofList [0x2c, 0x3c]
    let unread : Call := ⟨.ofScripts [.fault ⟨.timedOut, none⟩, .byte 7] [] [], true⟩
    let read : Call := ⟨.ofScripts [.byte 7] [] [], true⟩
    let ended : Call := ⟨.ofScripts [] [] [], false⟩
    let low : Outcome := .failed (.outOfBounds 1 0 .low)
    let m := ((unread.start (.new p ⟨4, 10⟩)).iterate 1).machine
    ∃ r ends, (read.start m).Ends r low ∧ Session r.machine [read, ended] ends ∧
      List.Forall₂ (fun call e =>
        e.2 = low ∧ e.1.machine = r.machine ∧ e.1.console = call.console) [read, ended] ends := by
  intro p unread read ended low m
  have hm : Reachable p ⟨4, 10⟩ m := .run unread 1 .new
  have ho : ((read.start m).iterate 2).outcome? = some low := by decide +kernel
  obtain ⟨r, hr⟩ := Run.exists_ends_of_outcome? ho
  obtain ⟨-, -, -, hrest⟩ := Reachable.ends_for_good hm (by decide) read hr
  obtain ⟨⟨ends, hs⟩, hall⟩ := hrest (by decide) [read, ended]
  exact ⟨r, ends, hr, hs, hall ends hs⟩

end Brainfuck
