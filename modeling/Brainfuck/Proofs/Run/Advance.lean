import Brainfuck.Proofs.Run.Invariant
import Brainfuck.Proofs.Run.Relocation

/-!
One instruction on the machine and its channels alone (`Machine.step`), and what a run adds to that:
it counts the instruction and tells of it (`Run.advance_eq`). A tape with cells is taken for granted.

From here on two runs are compared by what their machines do. Machines that do the same, at positions
that correspond, go on to related machines or stop in related ways (`Machine.step_matches`), and where
that is so of every related pair the runs go along with each other (`accompanies_of_step`). Where a map
`φ` takes machines to machines that do the same (`Carries`), it takes whole runs to runs, as far as they
have come (`Carries.iterate`); the second run may have counted and told more before the first one began.
-/

namespace Brainfuck

/-- What one instruction makes of a machine and its channels. -/
inductive Step where
  | goes (machine : Machine) (console : Console)
  | stops (outcome : Outcome) (console : Console)

def Step.map (φ : Machine → Machine) (G : Outcome → Outcome) : Step → Step
  | .goes m c => .goes (φ m) c
  | .stops o c => .stops (G o) c

/-- Two machines have gone on to related ones, or both have stopped, in related ways; either way their
channels are the same. -/
inductive Step.Matches (R : Machine → Machine → Prop) (T : Outcome → Outcome → Prop) :
    Step → Step → Prop
  | goes {m n : Machine} {c : Console} : R m n → Matches R T (.goes m c) (.goes n c)
  | stops {o o' : Outcome} {c : Console} : T o o' → Matches R T (.stops o c) (.stops o' c)

/-- The next instruction, with nothing counted and nothing told. -/
def Machine.step (m : Machine) (c : Console) : Step :=
  match m.next with
  | .halt => .stops .done c
  | .fail failure => .stops (.failed failure) c
  | .crash => .stops .crashed c
  | .emit b =>
    match c.put b with
    | (.ok (), c) => .goes m.forward c
    | (.error fault, c) => .stops (.failed (.io m.ip fault)) c
  | .accept =>
    match c.take with
    | (.ok none, c) => .goes m.forward c
    | (.ok (some b), c) => .goes (m.store b).forward c
    | (.error fault, c) => .stops (.failed (.io m.ip fault)) c
  | a => .goes (m.perform a).forward c

/-- How an action ends a run, if it does so whatever the channels do. -/
def Action.outcome? : Action → Option Outcome
  | .halt => some .done
  | .fail failure => some (.failed failure)
  | .crash => some .crashed
  | _ => none

/-- `ε` tells of the same instructions at the positions that `f` says, `k` instructions later. -/
structure Event.Shifts (f : Nat → Nat) (k : Nat) (ε : Event → Event) : Prop where
  executed : ∀ step ip pointer cell instr, ε (.executed step ip pointer cell instr) =
    .executed (step + k) (f ip) pointer cell instr
  finished : ∀ steps, ε (.finished steps) = .finished (steps + k)

lemma Machine.step_of_outcome? {m : Machine} {o : Outcome} (h : m.next.outcome? = some o)
    (c : Console) : m.step c = .stops o c := by
  rw [step]
  cases ha : m.next with
  | halt | fail _ | crash =>
    rw [ha] at h
    cases h
    rfl
  | _ =>
    rw [ha] at h
    cases h

lemma Machine.step_of_emit {m : Machine} {b : UInt8} (h : m.next = .emit b) (c : Console) :
    m.step c = match c.put b with
      | (.ok (), c) => .goes m.forward c
      | (.error fault, c) => .stops (.failed (.io m.ip fault)) c := by
  rw [step, h]

lemma Machine.step_of_accept {m : Machine} (h : m.next = .accept) (c : Console) :
    m.step c = match c.take with
      | (.ok none, c) => .goes m.forward c
      | (.ok (some b), c) => .goes (m.store b).forward c
      | (.error fault, c) => .stops (.failed (.io m.ip fault)) c := by
  rw [step, h]

/-- What a machine can do it does on some channels. -/
lemma Machine.Moves.exists_step {m m' : Machine} (h : m.Moves m') :
    ∃ c c', m.step c = .goes m' c' := by
  cases h with
  | @act a hn hg =>
    refine ⟨.ofScripts [] [] [], ?_⟩
    rw [step, hn]
    cases a with
    | halt | fail | crash => cases hg
    | _ => exact ⟨_, rfl⟩
  | store b hn _ =>
    refine ⟨.ofScripts [.byte b] [] [], ?_⟩
    rw [step_of_accept hn]
    exact ⟨_, rfl⟩

namespace Run

/-- What is to be told of the next instruction when it has left `m`; of a comment nothing is. -/
def executed? (r : Run) (m : Machine) : Option Event :=
  match r.machine.program.instr? r.machine.ip, m.tape.get? with
  | some a, some cell => some (.executed r.steps r.machine.ip m.tape.pointer cell a)
  | _, _ => none

/-- The run after an instruction that has left `m` and `c`. -/
def goOn (r : Run) (m : Machine) (c : Console) : Run :=
  match r.executed? m with
  | some e => ⟨m, c, r.traced, r.steps + 1, if r.traced then r.log.push e else r.log⟩
  | none => ⟨m, c, r.traced, r.steps, r.log⟩

/-- The run that its next instruction has ended. -/
def stop (r : Run) (o : Outcome) (c : Console) : Run :=
  ⟨r.machine, c, r.traced, r.steps,
    if o = .done then r.log.push (.finished r.steps) else r.log⟩

/-- The run on the machine that `φ` makes of its machine, `k` instructions later. -/
def carry (φ : Machine → Machine) (k : Nat) (tell : Array Event → Array Event) (r : Run) : Run :=
  ⟨φ r.machine, r.console, r.traced, r.steps + k, tell r.log⟩

variable {r r' : Run} {m : Machine} {c : Console} {o : Outcome}

/-! ### One instruction of a run -/

@[simp] lemma machine_goOn (r : Run) (m : Machine) (c : Console) : (r.goOn m c).machine = m := by
  unfold goOn
  split <;> rfl

@[simp] lemma console_goOn (r : Run) (m : Machine) (c : Console) : (r.goOn m c).console = c := by
  unfold goOn
  split <;> rfl

lemma size_log_goOn (r : Run) (m : Machine) (c : Console) :
    r.log.size ≤ (r.goOn m c).log.size := by
  unfold goOn
  split
  · split_ifs <;> simp
  · exact le_rfl

lemma record_eq {a : Instr} (hb : r.machine.program.instr? r.machine.ip = some a)
    (hc : m.tape.get?.isSome) (c : Console) :
    record m c r.traced r.steps r.log r.machine.ip a = .running (r.goOn m.forward c) := by
  obtain ⟨b, hb'⟩ := Option.isSome_iff_exists.mp hc
  have hcell : m.forward.tape.get? = some b := hb'
  simp only [record, goOn, executed?, hb, hb', hcell]
  cases r.traced <;> rfl

/-- **One instruction of a run**, on a tape with cells. -/
theorem advance_eq (hlt : r.machine.tape.pointer < r.machine.tape.length) :
    r.advance = match r.machine.step r.console with
      | .goes m c => .running (r.goOn m c)
      | .stops o c => .ended (r.stop o c) o := by
  have hget := (Tape.isSome_get? r.machine.tape).mpr hlt
  have hc := r.machine.chooses_next
  have hcell := hc.isSome_get? (Or.inl hlt)
  have hrecord {m : Machine} {a : Instr} (c : Console)
      (hb : r.machine.program.instr? r.machine.ip = some a) (h : m.tape.get?.isSome) :=
    record_eq hb h c
  obtain ⟨m, c, traced, steps, log⟩ := r
  rw [advance, Machine.step]
  generalize ha : m.next = a at hc hcell
  cases hc with
  | halt | unterminated | high | low | overflow | opening | closing | crash => rfl
  | pass hi hb =>
    simp only [goOn, executed?, hb]
    rfl
  | @emit b hb =>
    rcases hp : c.put b with ⟨_ | _, c'⟩
    · simp only [hp]
      rfl
    · simp only [hp]
      exact hrecord c' hb hget
  | accept hb =>
    simp only [hget, if_true]
    rcases c.take with ⟨_ | _ | b, c'⟩
    · rfl
    · exact hrecord c' hb hget
    · refine hrecord c' hb ?_
      rwa [Machine.store_tape, Tape.isSome_get?_set]
  | right hb | left hb | increment hb | decrement hb | enter hb | skip hb | again hb | leave hb =>
    exact hrecord c hb (hcell rfl (by simp) (by simp))

lemma advance_of_goes (hlt : r.machine.tape.pointer < r.machine.tape.length)
    (h : r.machine.step r.console = .goes m c) : r.advance = .running (r.goOn m c) := by
  rw [advance_eq hlt, h]

lemma advance_of_stops (hlt : r.machine.tape.pointer < r.machine.tape.length)
    (h : r.machine.step r.console = .stops o c) : r.advance = .ended (r.stop o c) o := by
  rw [advance_eq hlt, h]

/-- The machine of a run that goes on has moved. -/
lemma moves_of_step (hlt : r.machine.tape.pointer < r.machine.tape.length)
    (h : r.machine.step r.console = .goes m c) : r.machine.Moves m := by
  simpa using moves_of_advance (advance_of_goes hlt h)

/-- A run on a tape with cells ends as its machine does. -/
lemma step_of_advance_ended (hlt : r.machine.tape.pointer < r.machine.tape.length)
    (h : r.advance = .ended r' o) :
    ∃ c, r.machine.step r.console = .stops o c ∧ r' = r.stop o c := by
  rw [advance_eq hlt] at h
  cases hs : r.machine.step r.console with
  | goes m c =>
    rw [hs] at h
    cases h
  | stops o' c =>
    rw [hs] at h
    cases h
    exact ⟨c, rfl, rfl⟩

/-- A run on a tape with cells goes on as its machine does. -/
lemma step_of_advance_running (hlt : r.machine.tape.pointer < r.machine.tape.length)
    (h : r.advance = .running r') : r.machine.step r.console = .goes r'.machine r'.console ∧
      r' = r.goOn r'.machine r'.console := by
  rw [advance_eq hlt] at h
  cases hs : r.machine.step r.console with
  | goes m c =>
    rw [hs] at h
    cases h
    simp
  | stops o c =>
    rw [hs] at h
    cases h

end Run

/-! ### Runs that are carried over -/

section Relocate

variable {f : Nat → Nat}

lemma Outcome.relocate_eq_done_iff {o : Outcome} : o.relocate f = .done ↔ o = .done := by
  cases o <;> simp [relocate]

@[simp] lemma Failure.relocate_id (failure : Failure) : failure.relocate id = failure := by
  cases failure <;> rfl

@[simp] lemma Outcome.relocate_id (o : Outcome) : o.relocate id = o := by
  cases o <;> simp [relocate]

@[simp] lemma Action.relocate_id (a : Action) : a.relocate id = a := by
  cases a <;> simp [relocate]

end Relocate

section Matches

variable {R : Machine → Machine → Prop} {T : Outcome → Outcome → Prop} {f : Nat → Nat}

/-- **Two machines that are about to do the same**, the second one at the positions that `f` says. -/
theorem Machine.step_matches {m n : Machine} (hip : n.ip = f m.ip)
    (hnext : n.next = m.next.relocate f)
    (hperform : m.next.goesOn →
      R (m.perform m.next).forward (n.perform (m.next.relocate f)).forward)
    (hstore : m.next = .accept → ∀ b, R (m.store b).forward (n.store b).forward) (c : Console) :
    Step.Matches R (fun o o' => o' = o.relocate f) (m.step c) (n.step c) := by
  have hp {a : Action} (ha : m.next = a) (hg : a.goesOn) :
      R (m.perform a).forward (n.perform (a.relocate f)).forward := by
    subst ha
    exact hperform hg
  rw [step, step, hnext]
  cases ha : m.next with
  | halt | fail _ | crash => exact .stops rfl
  | emit b =>
    simp only [Action.relocate]
    rcases c.put b with ⟨_ | _, c'⟩
    · simp only [hip]
      exact .stops rfl
    · exact .goes (hp ha rfl)
  | accept =>
    simp only [Action.relocate]
    rcases c.take with ⟨_ | _ | b, c'⟩
    · simp only [hip]
      exact .stops rfl
    · exact .goes (hp ha rfl)
    · exact .goes (hstore ha b)
  | pass | right | left | increment | decrement | enter | skip j | again i | leave =>
    exact .goes (hp ha rfl)

lemma Step.Matches.swap {R' : Machine → Machine → Prop} {T' : Outcome → Outcome → Prop}
    {x y : Step} (h : x.Matches R T y) (hR : ∀ m n, R m n → R' n m)
    (hT : ∀ o o', T o o' → T' o' o) : y.Matches R' T' x := by
  cases h with
  | goes h => exact .goes (hR _ _ h)
  | stops h => exact .stops (hT _ _ h)

lemma Step.Matches.imp {R' : Machine → Machine → Prop} {T' : Outcome → Outcome → Prop}
    {x y : Step} (h : x.Matches R T y) (hR : ∀ m n, R m n → R' m n)
    (hT : ∀ o o', T o o' → T' o o') : x.Matches R' T' y := by
  cases h with
  | goes h => exact .goes (hR _ _ h)
  | stops h => exact .stops (hT _ _ h)

/-- What matches under a map is mapped. -/
lemma Step.Matches.eq_map {φ : Machine → Machine} {G : Outcome → Outcome} {x y : Step}
    (h : x.Matches (fun m n => n = φ m) (fun o o' => o' = G o) y) : y = x.map φ G := by
  cases h with
  | goes h => rw [h, map]
  | stops h => rw [h, map]

/-- **Runs of machines of which each step matches** go along with each other; a step that leaves the
channels alone may be left out. -/
theorem accompanies_of_step {Q : Machine → Machine → Prop}
    {T : Machine → Machine → Outcome → Outcome → Prop} {μ : Machine → Nat}
    (hlt : ∀ m n, Q m n → m.tape.pointer < m.tape.length ∧ n.tape.pointer < n.tape.length)
    (hstep : ∀ m n, Q m n → ∀ c, (m.step c).Matches Q (T m n) (n.step c) ∨
      ∃ m', m.step c = .goes m' c ∧ Q m' n ∧ μ m' < μ m) :
    Accompanies (fun r s => Q r.machine s.machine ∧ s.console = r.console)
      (fun e e' => Q e.1.machine e'.1.machine ∧ e'.1.console = e.1.console ∧
        T e.1.machine e'.1.machine e.2 e'.2) (fun r => μ r.machine) where
  advance := by
    rintro r s ⟨hQ, hc⟩
    obtain ⟨hr, hs⟩ := hlt _ _ hQ
    rcases hstep _ _ hQ r.console with hm | ⟨m', hm, hQ', hlt'⟩
    · left
      rw [Run.advance_eq hr, Run.advance_eq hs, hc]
      generalize r.machine.step r.console = x, s.machine.step r.console = y at hm
      cases hm with
      | goes hQ' => exact .running (by simpa using hQ')
      | stops hT => exact .ended ⟨hQ, rfl, hT⟩
    · right
      exact ⟨_, Run.advance_of_goes hr hm, by simpa [hc] using hQ', by simpa using hlt'⟩

end Matches

/-- `φ` takes the machines with `P` to machines that do the same at the positions that `f` says; one
that is about to stop is excepted unless it does so in a way that is `ok`. -/
structure Carries (P : Machine → Prop) (ok : Outcome → Prop) (φ : Machine → Machine)
    (f : Nat → Nat) : Prop where
  moves : ∀ m m', P m → m.Moves m' → P m'
  pointer_lt : ∀ m, P m → m.tape.pointer < m.tape.length
  cell : ∀ m, P m → (φ m).tape.get? = m.tape.get?
  pointer : ∀ m, (φ m).tape.pointer = m.tape.pointer
  ip : ∀ m, (φ m).ip = f m.ip
  instr : ∀ m, P m → (∀ o, m.next.outcome? = some o → ok o) →
    (φ m).program.instr? (φ m).ip = m.program.instr? m.ip
  next : ∀ m, P m → (∀ o, m.next.outcome? = some o → ok o) → (φ m).next = m.next.relocate f
  perform : ∀ m, P m → m.next.goesOn →
    ((φ m).perform (m.next.relocate f)).forward = φ (m.perform m.next).forward
  store : ∀ m, P m → ∀ b, ((φ m).store b).forward = φ (m.store b).forward

namespace Carries

variable {P : Machine → Prop} {ok : Outcome → Prop} {φ : Machine → Machine} {f : Nat → Nat}
  {m : Machine} {r : Run} {k n : Nat} {tell : Array Event → Array Event} {ε : Event → Event}

lemma step (h : Carries P ok φ f) (hm : P m) (hok : ∀ o, m.next.outcome? = some o → ok o)
    (c : Console) : (φ m).step c = (m.step c).map φ (Outcome.relocate f) :=
  (Machine.step_matches (h.ip m) (h.next m hm hok) (h.perform m hm)
    (fun _ b => h.store m hm b) c).eq_map

/-- **One instruction of a run that is carried over.** -/
theorem advance (h : Carries P ok φ f) (hε : Event.Shifts f k ε) (hm : P r.machine)
    (hok : ∀ o, r.machine.next.outcome? = some o → ok o)
    (htell : ∀ e, tell (r.log.push e) = (tell r.log).push (ε e)) :
    (r.carry φ k tell).advance = r.advance.map (Run.carry φ k tell) (Outcome.relocate f) := by
  have hlt := h.pointer_lt _ hm
  have hlt' : (φ r.machine).tape.pointer < (φ r.machine).tape.length := by
    rw [← Tape.isSome_get?, h.cell _ hm, Tape.isSome_get?]
    exact hlt
  have hstep : (r.carry φ k tell).machine.step (r.carry φ k tell).console =
      (r.machine.step r.console).map φ (Outcome.relocate f) := h.step hm hok r.console
  cases hs : r.machine.step r.console with
  | stops o c =>
    rw [hs] at hstep
    rw [Run.advance_of_stops hlt hs, Run.advance_of_stops hlt' hstep]
    simp only [Progress.map, Run.stop, Run.carry, Outcome.relocate_eq_done_iff, apply_ite tell,
      htell, hε.finished]
  | goes m c =>
    rw [hs] at hstep
    rw [Run.advance_of_goes hlt hs, Run.advance_of_goes hlt' hstep]
    have hm' := h.moves _ _ hm (Run.moves_of_step hlt hs)
    have he : (r.carry φ k tell).executed? (φ m) = (r.executed? m).map ε := by
      unfold Run.executed? Run.carry
      dsimp only
      rw [h.instr _ hm hok, h.cell _ hm', h.ip, h.pointer]
      split
      · rw [Option.map_some, hε.executed]
      · rfl
    simp only [Progress.map, Run.goOn, he]
    cases r.executed? m with
    | none => rfl
    | some e =>
      simp only [Option.map_some, Run.carry, apply_ite tell, htell, Nat.add_right_comm]
      rfl

/-- **A run that is carried over**, after any number of instructions. -/
theorem iterate (h : Carries P ok φ f) (hε : Event.Shifts f k ε)
    (tell : Array Event → Array Event)
    (htell : ∀ log e, 0 < log.size → tell (log.push e) = (tell log).push (ε e))
    (hm : P r.machine) (hlog : 0 < r.log.size)
    (hok : ∀ r' o, r.iterate n = .ended r' o → ok o) :
    (r.carry φ k tell).iterate n =
      (r.iterate n).map (Run.carry φ k tell) (Outcome.relocate f) := by
  induction n generalizing r with
  | zero => rfl
  | succ n ih =>
    have hlt := h.pointer_lt _ hm
    have hnext : ∀ o, r.machine.next.outcome? = some o → ok o := by
      intro o ho
      have hend := Run.advance_of_stops hlt (Machine.step_of_outcome? ho r.console)
      exact hok _ o (Run.iterate_succ_of_ended hend n)
    have ha := h.advance hε hm hnext fun e => htell r.log e hlog
    cases hs : r.machine.step r.console with
    | stops o c =>
      have hend := Run.advance_of_stops hlt hs
      rw [hend] at ha
      rw [Run.iterate_succ_of_ended hend, Run.iterate_succ_of_ended ha]
      rfl
    | goes m c =>
      have hgo := Run.advance_of_goes hlt hs
      rw [hgo] at ha
      rw [Run.iterate_succ_of_running hgo] at hok ⊢
      rw [Run.iterate_succ_of_running ha]
      refine ih ?_ ?_ hok
      · rw [Run.machine_goOn]
        exact h.moves _ _ hm (Run.moves_of_step hlt hs)
      · exact Nat.lt_of_lt_of_le hlog (Run.size_log_goOn r m c)

end Carries

end Brainfuck
