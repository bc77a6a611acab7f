import Brainfuck.Proofs.Run.Simulation

/-!
Relocation: what a machine does, and what a run tells of it, with every position `i` replaced by
`f i`, for a program `p'` that has its instructions there.

Where the two programs have the same instruction, at `i` and at `f i`, and their searches agree, the
relocated machine does the relocated action (`Machine.next_relocate`); and if the position behind the
one that it comes to is relocated to the position behind, it comes to the relocated state
(`Run.advance_relocate`).
-/

namespace Brainfuck

section Definitions

variable (f : Nat → Nat)

def Failure.relocate : Failure → Failure
  | .outOfBounds ip pointer bound => .outOfBounds (f ip) pointer bound
  | .unmatched ip bracket => .unmatched (f ip) bracket
  | .unterminated loops => .unterminated loops
  | .stackOverflow ip capacity => .stackOverflow (f ip) capacity
  | .io ip fault => .io (f ip) fault

def Outcome.relocate : Outcome → Outcome
  | .done => .done
  | .failed failure => .failed (failure.relocate f)
  | .crashed => .crashed

def Action.relocate : Action → Action
  | .skip target => .skip (f target)
  | .again target => .again (f target)
  | .fail failure => .fail (failure.relocate f)
  | a => a

/-- An event of a run, relocated; the length of the program is the position of its end. -/
def Event.relocate : Event → Event
  | .started length tape => .started (f length) tape
  | .executed step ip pointer cell instr => .executed step (f ip) pointer cell instr
  | e => e

def LoopStack.relocate (s : LoopStack) : LoopStack := ⟨s.entries.map f, s.capacity⟩

/-- The machine at `f ip` in `p'`; the tape is the same. -/
def Machine.relocate (p' : Program) (m : Machine) : Machine :=
  ⟨p', m.tape, m.loops.relocate f, f m.ip⟩

/-- The run of the relocated machine; channels and steps are the same. -/
def Run.relocate (p' : Program) (r : Run) : Run :=
  ⟨r.machine.relocate f p', r.console, r.traced, r.steps, r.log.map (Event.relocate f)⟩

end Definitions

variable {f : Nat → Nat} {p' : Program} {m : Machine} {r : Run}

namespace LoopStack

variable (s : LoopStack)

lemma toList_relocate : (s.relocate f).toList = s.toList.map f := Array.toList_map

lemma depth_relocate : (s.relocate f).depth = s.depth := Array.size_map

lemma isEmpty_relocate : (s.relocate f).isEmpty = s.isEmpty := by
  simp [isEmpty, relocate, Array.isEmpty]

lemma top?_relocate : (s.relocate f).top? = s.top?.map f := by
  rw [top?_eq, top?_eq, toList_relocate, List.getLast?_map]

lemma isFull_relocate : (s.relocate f).isFull = s.isFull := by
  rw [isFull, isFull, depth_relocate]
  rfl

lemma add_relocate (i : Nat) : (s.relocate f).add (f i) = (s.add i).relocate f := by
  simp [add, relocate]

lemma drop_relocate : (s.relocate f).drop = s.drop.relocate f := by
  simp [drop, relocate]

end LoopStack

namespace Machine

/-- A new machine, relocated, is a new one. -/
lemma relocate_new (h : f 0 = 0) (p : Program) (l : Limits) :
    (new p l).relocate f p' = new p' l := by
  simp [relocate, new, LoopStack.relocate, LoopStack.withCapacity, h]

/-- A relocated machine makes of an instruction what the machine makes of it, if the search for the
end of a loop does. -/
lemma actionOf_relocate {a : Instr}
    (hj : a = .loopStart → p'.loopEnd? (f m.ip) = (m.program.loopEnd? m.ip).map f) :
    (m.relocate f p').actionOf a = (m.actionOf a).relocate f := by
  cases a with
  | right =>
    simp only [actionOf, relocate]
    cases m.tape.rightBound? <;> rfl
  | left =>
    simp only [actionOf, relocate]
    cases m.tape.leftBound? <;> rfl
  | increment | decrement => 
    have hget : (m.relocate f p').tape.get? = m.tape.get? := rfl
    rw [actionOf, actionOf, hget]
    split_ifs <;> rfl
  | output =>
    simp only [actionOf, relocate]
    cases m.tape.get? <;> rfl
  | input => rfl
  | loopStart =>
    simp only [actionOf, relocate, LoopStack.isFull_relocate, hj rfl]
    rcases m.tape.get? with _ | b
    · rfl
    by_cases h0 : b = 0
    · simp only [h0, if_true]
      cases m.program.loopEnd? m.ip <;> rfl
    · simp only [h0, if_false]
      split_ifs <;> rfl
  | loopEnd =>
    simp only [actionOf, relocate, LoopStack.top?_relocate]
    rcases m.loops.top? with _ | i
    · rfl
    rcases m.tape.get? with _ | b
    · rfl
    simp only [Option.map_some]
    split_ifs <;> rfl

/-- **What a relocated machine does next.** -/
theorem next_relocate (hs : p'.size ≤ f m.ip ↔ m.program.size ≤ m.ip)
    (hi : p'.instr? (f m.ip) = m.program.instr? m.ip)
    (hj : m.program.instr? m.ip = some .loopStart →
      p'.loopEnd? (f m.ip) = (m.program.loopEnd? m.ip).map f) :
    (m.relocate f p').next = m.next.relocate f := by
  rcases Nat.lt_or_ge m.ip m.program.size with hlt | hge
  · have hlt' : f m.ip < p'.size := by
      by_contra h
      exact absurd (hs.mp (Nat.le_of_not_lt h)) (Nat.not_le.mpr hlt)
    cases hb : m.program.instr? m.ip with
    | none =>
      rw [next_of_comment hlt hb, next_of_comment hlt' (hi.trans hb)]
      rfl
    | some a =>
      have ha := next_of_instr (m := m.relocate f p') (hi.trans hb)
      rw [ha, next_of_instr hb]
      exact actionOf_relocate fun h => hj (h ▸ hb)
  · have hend := next_of_size_le (m := m.relocate f p') (hs.mpr hge)
    rw [hend, next_of_size_le hge]
    simp only [relocate, LoopStack.isEmpty_relocate, LoopStack.depth_relocate]
    split_ifs <;> rfl

lemma perform_relocate (a : Action) :
    (m.relocate f p').perform (a.relocate f) = (m.perform a).relocate f p' := by
  cases a with
  | enter => simp only [Action.relocate, perform, relocate, LoopStack.add_relocate]
  | leave => simp only [Action.relocate, perform, relocate, LoopStack.drop_relocate]
  | _ => rfl

lemma forward_relocate (h : f (m.ip + 1) = f m.ip + 1) :
    (m.relocate f p').forward = m.forward.relocate f p' := by
  simp only [forward, relocate, h]

end Machine

namespace Run

lemma record_relocate {c : Console} {traced : Bool} {steps ip : Nat} {log : Array Event}
    {a : Instr} (h : f (m.ip + 1) = f m.ip + 1) :
    record (m.relocate f p') c traced steps (log.map (Event.relocate f)) (f ip) a =
      (record m c traced steps log ip a).map (relocate f p') (Outcome.relocate f) := by
  unfold record
  cases traced with
  | false =>
    simp only [Bool.false_eq_true, if_false, Progress.map, relocate, Machine.forward_relocate h]
  | true =>
    simp only [if_true]
    have htape : (m.relocate f p').tape = m.tape := rfl
    rw [htape]
    cases m.tape.get? with
    | none => rfl
    | some b =>
      simp only [Progress.map, relocate, Machine.forward_relocate h, Array.map_push]
      rfl

/-- **What a relocated run does.** -/
theorem advance_relocate (hn : (r.machine.relocate f p').next = r.machine.next.relocate f)
    (hf : r.machine.next.goesOn → f ((r.machine.perform r.machine.next).ip + 1) =
      f (r.machine.perform r.machine.next).ip + 1) :
    (r.relocate f p').advance = r.advance.map (relocate f p') (Outcome.relocate f) := by
  obtain ⟨m, c, traced, steps, log⟩ := r
  have hf {a : Action} (ha : m.next = a) (hg : a.goesOn) :
      f ((m.perform a).ip + 1) = f (m.perform a).ip + 1 := by
    subst ha
    exact hf hg
  have hn : (m.relocate f p').next = m.next.relocate f := hn
  have hip : (m.relocate f p').ip = f m.ip := rfl
  have htape : (m.relocate f p').tape = m.tape := rfl
  rw [relocate, advance, advance]
  simp only [hn]
  cases ha : m.next with
  | halt =>
    simp only [Action.relocate, Progress.map, relocate, Array.map_push]
    rfl
  | fail _ | crash => rfl
  | pass =>
    have hfwd : (m.relocate f p').forward = m.forward.relocate f p' :=
      Machine.forward_relocate (hf ha rfl)
    simp only [Action.relocate, Progress.map, relocate, hfwd]
  | emit b =>
    rcases hp : c.put b with ⟨_ | _, c'⟩
    · simp only [Action.relocate, hp]
      rfl
    · simp only [Action.relocate, hp]
      exact record_relocate (hf ha rfl)
  | accept =>
    simp only [Action.relocate, htape]
    rcases c.take with ⟨_ | _ | b, c'⟩
    · rfl
    · exact record_relocate (hf ha rfl)
    · split_ifs
      · exact record_relocate (m := m.store b) (hf ha rfl)
      · rfl
  | right | left | increment | decrement | enter | skip j | again i | leave =>
    simp only [Action.relocate]
    rw [hip, ← record_relocate (hf ha rfl), ← Machine.perform_relocate]
    rfl

end Run

end Brainfuck
