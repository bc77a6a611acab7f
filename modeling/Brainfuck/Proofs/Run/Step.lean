import Brainfuck.Proofs.Brackets.Search
import Brainfuck.Run

/-!
What one instruction does. All that later proofs need to know about it is said here once:

* `Machine.Chooses` lists what a machine can be about to do, each action with what was checked for
  it (`Machine.chooses_next`);
* a run that goes on has moved its machine in one of two ways (`Run.moves_of_advance`), and a run
  that ends has left it as it was (`Run.stops_of_advance`).
-/

namespace Brainfuck

/-- The pointer is on the tape; on a tape without cells it is 0. -/
def Tape.InRange (t : Tape) : Prop := t.pointer < t.length ∨ t.length = 0 ∧ t.pointer = 0

/-- Whether a run can go on with an action. -/
def Action.goesOn : Action → Bool
  | .halt | .fail _ | .crash => false
  | _ => true

namespace Machine

/-- The action that `m` is about to take, with the checks that have led to it. -/
inductive Chooses (m : Machine) : Action → Prop
  | halt : m.program.size ≤ m.ip → m.loops.isEmpty → Chooses m .halt
  | unterminated : m.program.size ≤ m.ip → ¬ m.loops.isEmpty →
      Chooses m (.fail (.unterminated m.loops.depth))
  | pass : m.ip < m.program.size → m.program.instr? m.ip = none → Chooses m .pass
  | right : m.program.instr? m.ip = some .right → m.tape.pointer + 1 < m.tape.length →
      Chooses m .right
  | high : m.program.instr? m.ip = some .right → m.tape.length ≤ m.tape.pointer + 1 →
      Chooses m (.fail (.outOfBounds m.ip m.tape.pointer .high))
  | left : m.program.instr? m.ip = some .left → m.tape.pointer ≠ 0 → Chooses m .left
  | low : m.program.instr? m.ip = some .left → m.tape.pointer = 0 →
      Chooses m (.fail (.outOfBounds m.ip m.tape.pointer .low))
  | increment : m.program.instr? m.ip = some .increment → m.tape.get?.isSome →
      Chooses m .increment
  | decrement : m.program.instr? m.ip = some .decrement → m.tape.get?.isSome →
      Chooses m .decrement
  | emit {b : UInt8} : m.program.instr? m.ip = some .output → m.tape.get? = some b →
      Chooses m (.emit b)
  | accept : m.program.instr? m.ip = some .input → Chooses m .accept
  | enter {b : UInt8} : m.program.instr? m.ip = some .loopStart → m.tape.get? = some b → b ≠ 0 →
      m.loops.depth < m.loops.capacity → Chooses m .enter
  | overflow {b : UInt8} : m.program.instr? m.ip = some .loopStart → m.tape.get? = some b →
      b ≠ 0 → m.loops.capacity ≤ m.loops.depth →
      Chooses m (.fail (.stackOverflow m.ip m.loops.capacity))
  | skip {j : Nat} : m.program.instr? m.ip = some .loopStart → m.tape.get? = some 0 →
      m.program.loopEnd? m.ip = some j → Chooses m (.skip j)
  | opening : m.program.instr? m.ip = some .loopStart → m.tape.get? = some 0 →
      m.program.loopEnd? m.ip = none → Chooses m (.fail (.unmatched m.ip .opening))
  | again {i : Nat} {b : UInt8} : m.program.instr? m.ip = some .loopEnd →
      m.loops.top? = some i → m.tape.get? = some b → b ≠ 0 → Chooses m (.again i)
  | leave {i : Nat} : m.program.instr? m.ip = some .loopEnd → m.loops.top? = some i →
      m.tape.get? = some 0 → Chooses m .leave
  | closing : m.program.instr? m.ip = some .loopEnd → m.loops.top? = none →
      Chooses m (.fail (.unmatched m.ip .closing))
  | crash : m.program.instr? m.ip ≠ none → m.tape.get? = none → Chooses m .crash

/-- One instruction, or one comment, takes the machine `m` on to another one. -/
inductive Moves (m : Machine) : Machine → Prop
  | act {a : Action} : m.next = a → a.goesOn → Moves m (m.perform a).forward
  | store (b : UInt8) : m.next = .accept → m.tape.get?.isSome → Moves m (m.store b).forward

/-- A run of the machine `m` can end where it stands, in the given way. -/
inductive Stops (m : Machine) : Outcome → Prop
  | halt : m.next = .halt → Stops m .done
  | fail {f : Failure} : m.next = .fail f → Stops m (.failed f)
  | write {b : UInt8} (f : Fault) : m.next = .emit b → Stops m (.failed (.io m.ip f))
  | read (f : Fault) : m.next = .accept → Stops m (.failed (.io m.ip f))
  | crash : m.tape.get? = none → Stops m .crashed

variable {m : Machine}

@[simp] lemma store_tape (m : Machine) (b : UInt8) : (m.store b).tape = m.tape.set b := rfl

/-! ### What comes next -/

lemma next_of_instr {a : Instr} (h : m.program.instr? m.ip = some a) : m.next = m.actionOf a := by
  have hi := Program.lt_of_instr? h
  rw [Program.instr?_of_lt hi] at h
  rw [next, dif_pos hi, h]

lemma next_of_comment (hi : m.ip < m.program.size) (h : m.program.instr? m.ip = none) :
    m.next = .pass := by
  have hi : m.ip < m.program.bytes.size := hi
  rw [Program.instr?_of_lt hi] at h
  rw [next, dif_pos hi, h]

lemma next_of_size_le (hi : m.program.size ≤ m.ip) :
    m.next = if m.loops.isEmpty then .halt else .fail (.unterminated m.loops.depth) := by
  have hi : ¬ m.ip < m.program.bytes.size := Nat.not_lt.mpr hi
  rw [next, dif_neg hi]

/-- **What a machine is about to do** was checked before. -/
theorem chooses_next (m : Machine) : m.Chooses m.next := by
  rcases Nat.lt_or_ge m.ip m.program.size with hi | hi
  swap
  · rw [next_of_size_le hi]
    split_ifs with he
    · exact .halt hi he
    · exact .unterminated hi he
  rcases hb : m.program.instr? m.ip with _ | a
  · rw [next_of_comment hi hb]
    exact .pass hi hb
  have hne : m.program.instr? m.ip ≠ none := by simp [hb]
  rw [next_of_instr hb]
  cases a with
  | right =>
    simp only [actionOf, Tape.rightBound?]
    split_ifs with hlt
    · exact .right hb hlt
    · exact .high hb (Nat.le_of_not_lt hlt)
  | left =>
    simp only [actionOf, Tape.leftBound?]
    split_ifs with h0
    · exact .low hb h0
    · exact .left hb h0
  | increment =>
    simp only [actionOf]
    split_ifs with hc
    · exact .increment hb hc
    · exact .crash hne (by simpa using hc)
  | decrement =>
    simp only [actionOf]
    split_ifs with hc
    · exact .decrement hb hc
    · exact .crash hne (by simpa using hc)
  | output =>
    simp only [actionOf]
    split
    · rename_i hc
      exact .emit hb hc
    · rename_i hc
      exact .crash hne hc
  | input => exact .accept hb
  | loopStart =>
    simp only [actionOf]
    split
    · rename_i hc
      exact .crash hne hc
    · rename_i b hc
      split_ifs with h0 hf
      · subst h0
        split
        · rename_i hj
          exact .skip hb hc hj
        · rename_i hj
          exact .opening hb hc hj
      · exact .overflow hb hc h0 (by simpa [LoopStack.isFull] using hf)
      · exact .enter hb hc h0 (by simpa [LoopStack.isFull] using hf)
  | loopEnd =>
    simp only [actionOf]
    split
    · rename_i ht
      exact .closing hb ht
    · rename_i i ht
      split
      · rename_i hc
        exact .crash hne hc
      · rename_i b hc
        split_ifs with h0
        · subst h0
          exact .leave hb ht hc
        · exact .again hb ht hc h0

/-- The checks decide what a machine is about to do. -/
theorem Chooses.next_eq {a : Action} (h : m.Chooses a) (ha : a ≠ .crash) : m.next = a := by
  cases h with
  | halt hi he => rw [next_of_size_le hi, if_pos he]
  | unterminated hi he => rw [next_of_size_le hi, if_neg he]
  | pass hi hb => exact next_of_comment hi hb
  | right hb hlt => simp [next_of_instr hb, actionOf, Tape.rightBound?, hlt]
  | high hb hle => simp [next_of_instr hb, actionOf, Tape.rightBound?, Nat.not_lt.mpr hle]
  | left hb h0 => simp [next_of_instr hb, actionOf, Tape.leftBound?, h0]
  | low hb h0 => simp [next_of_instr hb, actionOf, Tape.leftBound?, h0]
  | increment hb hc | decrement hb hc => simp [next_of_instr hb, actionOf, hc]
  | emit hb hc => simp [next_of_instr hb, actionOf, hc]
  | accept hb => simp [next_of_instr hb, actionOf]
  | enter hb hc h0 hlt => simp [next_of_instr hb, actionOf, hc, h0, LoopStack.isFull, hlt]
  | overflow hb hc h0 hle => simp [next_of_instr hb, actionOf, hc, h0, LoopStack.isFull, hle]
  | skip hb hc hj | opening hb hc hj => simp [next_of_instr hb, actionOf, hc, hj]
  | again hb ht hc h0 => simp [next_of_instr hb, actionOf, ht, hc, h0]
  | leave hb ht hc => simp [next_of_instr hb, actionOf, ht, hc]
  | closing hb ht => simp [next_of_instr hb, actionOf, ht]
  | crash => exact absurd rfl ha

lemma of_next_emit {b : UInt8} (hn : m.next = .emit b) :
    m.program.instr? m.ip = some .output ∧ m.tape.get? = some b := by
  have hc := hn ▸ m.chooses_next
  cases hc with
  | emit hb hcell => exact ⟨hb, hcell⟩

lemma instr?_of_next_accept (hn : m.next = .accept) : m.program.instr? m.ip = some .input := by
  have hc := hn ▸ m.chooses_next
  cases hc with
  | accept hb => exact hb

/-- A failure that is none of the channels was decided before anything was done. -/
lemma Stops.next_eq_fail {f : Failure} (h : m.Stops (.failed f)) (hio : ∀ i f', f ≠ .io i f') :
    m.next = .fail f := by
  cases h with
  | fail hn => exact hn
  | write f' _ | read f' _ => exact absurd rfl (hio _ _)

/-- An instruction that is executed leaves the pointer on a cell, an input apart. -/
lemma Chooses.isSome_get? {a : Action} (h : m.Chooses a) (hin : m.tape.InRange)
    (ha : a.goesOn) (hp : a ≠ .pass) (hi : a ≠ .accept) : (m.perform a).tape.get?.isSome := by
  cases h with
  | halt | unterminated | high | low | overflow | opening | closing | crash =>
    simp [Action.goesOn] at ha
  | pass => exact absurd rfl hp
  | accept => exact absurd rfl hi
  | right _ hlt =>
    rw [Tape.isSome_get?]
    exact hlt
  | left _ h0 =>
    rw [Tape.isSome_get?]
    rcases hin with hlt | ⟨-, h0'⟩
    · show m.tape.pointer - 1 < m.tape.length
      omega
    · exact absurd h0' h0
  | increment _ hc | decrement _ hc =>
    rw [Tape.isSome_get?] at hc ⊢
    exact (Tape.pointer_modify m.tape _).symm ▸ (Tape.length_modify m.tape _).symm ▸ hc
  | emit _ hc | enter _ hc | skip _ hc | again _ _ hc | leave _ _ hc =>
    show m.tape.get?.isSome
    simp [hc]

end Machine

namespace Run

variable {r r' : Run} {o : Outcome}

/-! ### One instruction of a run -/

section Record

variable {m : Machine} {c : Console} {traced : Bool} {steps ip : Nat} {log : Array Event}
  {a : Instr}

lemma running_of_record (h : record m c traced steps log ip a = .running r') :
    r'.machine = m.forward := by
  unfold record at h
  split at h
  · split at h
    · cases h
      rfl
    · cases h
  · cases h
    rfl

lemma traced_of_record (h : record m c traced steps log ip a = .running r') :
    r'.traced = traced := by
  unfold record at h
  split at h
  · split at h <;> cases h
    rfl
  · cases h
    rfl

lemma ended_of_record (h : record m c traced steps log ip a = .ended r' o) :
    o = .crashed ∧ r'.machine = m ∧ m.tape.get? = none := by
  unfold record at h
  split at h
  · split at h
    · cases h
    · rename_i hc
      cases h
      exact ⟨rfl, rfl, hc⟩
  · cases h

end Record

/-- **A run that goes on** has moved its machine. -/
theorem moves_of_advance (h : r.advance = .running r') : r.machine.Moves r'.machine := by
  obtain ⟨m, c, traced, steps, log⟩ := r
  rw [advance] at h
  cases hn : m.next with
  | halt | fail f | crash => simp [hn] at h
  | pass =>
    simp only [hn, Progress.running.injEq] at h
    subst h
    exact Machine.Moves.act hn rfl
  | emit b =>
    simp only [hn] at h
    split at h
    · rw [running_of_record h]
      exact .act hn rfl
    · cases h
  | accept =>
    simp only [hn] at h
    split at h
    · rw [running_of_record h]
      exact .act hn rfl
    · split_ifs at h with hc
      · rw [running_of_record h]
        exact .store _ hn hc
    · cases h
  | right | left | increment | decrement | enter | skip j | again i | leave =>
    simp only [hn] at h
    rw [running_of_record h]
    exact .act hn rfl

/-- An instruction changes nothing about whether the run is traced. -/
lemma traced_of_advance (h : r.advance = .running r') : r'.traced = r.traced := by
  obtain ⟨m, c, traced, steps, log⟩ := r
  rw [advance] at h
  cases hn : m.next with
  | halt | fail f | crash => simp [hn] at h
  | pass =>
    simp only [hn, Progress.running.injEq] at h
    subst h
    rfl
  | emit b =>
    simp only [hn] at h
    split at h
    · exact traced_of_record h
    · cases h
  | accept =>
    simp only [hn] at h
    split at h
    · exact traced_of_record h
    · split_ifs at h
      exact traced_of_record h
    · cases h
  | right | left | increment | decrement | enter | skip j | again i | leave =>
    simp only [hn] at h
    exact traced_of_record h

/-- **A run that ends** has left its machine as it was. -/
theorem stops_of_advance (hin : r.machine.tape.InRange) (h : r.advance = .ended r' o) :
    r'.machine = r.machine ∧ r.machine.Stops o := by
  obtain ⟨m, c, traced, steps, log⟩ := r
  -- an instruction that is recorded leaves a cell to record
  have hcell {a : Action} (hn : m.next = a) :=
    Machine.Chooses.isSome_get? (hn ▸ m.chooses_next) hin
  rw [advance] at h
  cases hn : m.next with
  | halt =>
    simp only [hn, Progress.ended.injEq] at h
    obtain ⟨rfl, rfl⟩ := h
    exact ⟨rfl, .halt hn⟩
  | fail f =>
    simp only [hn, Progress.ended.injEq] at h
    obtain ⟨rfl, rfl⟩ := h
    exact ⟨rfl, .fail hn⟩
  | crash =>
    simp only [hn, Progress.ended.injEq] at h
    obtain ⟨rfl, rfl⟩ := h
    have hch := hn ▸ m.chooses_next
    cases hch with
    | crash _ hc => exact ⟨rfl, .crash hc⟩
  | pass => simp [hn] at h
  | emit b =>
    simp only [hn] at h
    split at h
    · obtain ⟨-, -, hc⟩ := ended_of_record h
      have := hcell hn rfl (by simp) (by simp)
      simp [Machine.perform, hc] at this
    · simp only [Progress.ended.injEq] at h
      obtain ⟨rfl, rfl⟩ := h
      exact ⟨rfl, .write _ hn⟩
  | accept =>
    simp only [hn] at h
    split at h
    · obtain ⟨rfl, hm, hc⟩ := ended_of_record h
      exact ⟨hm, .crash hc⟩
    · split_ifs at h with hc
      · obtain ⟨-, -, hc'⟩ := ended_of_record h
        rw [Machine.store_tape, ← Option.not_isSome_iff_eq_none, Tape.isSome_get?_set] at hc'
        exact absurd hc hc'
      · simp only [Progress.ended.injEq] at h
        obtain ⟨rfl, rfl⟩ := h
        exact ⟨rfl, .crash (by simpa using hc)⟩
    · simp only [Progress.ended.injEq] at h
      obtain ⟨rfl, rfl⟩ := h
      exact ⟨rfl, .read _ hn⟩
  | right | left | increment | decrement | enter | skip j | again i | leave =>
    simp only [hn] at h
    obtain ⟨-, -, hc⟩ := ended_of_record h
    have := hcell hn rfl (by simp) (by simp)
    simp [hc] at this

end Run

end Brainfuck
