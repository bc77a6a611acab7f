import Brainfuck.Proofs.Run.Logging

/-!
What a run leaves (`Final`), its log and the number of its steps apart. On a tape with cells this is
a matter of the machine and the channels alone: whether a run is traced, and what it has logged
already, makes no difference (`Run.finalAfter_eq`).

`Machine.finalAfter n` is what the run of a machine leaves if it ends within `n` instructions, and
`Machine.finalAfter_succ` takes the first of them off.
-/

namespace Brainfuck

/-- All that a run leaves: how it has ended and the state it has left. -/
structure Final where
  outcome : Outcome
  tape : Tape
  console : Console
  ip : Nat
  loops : List Nat

/-- What a run that has ended leaves. -/
def Run.final (r : Run) (o : Outcome) : Final :=
  ⟨o, r.machine.tape, r.console, r.machine.ip, r.machine.loops.toList⟩

/-- What a run leaves if it ends within `n` instructions. -/
def Run.finalAfter (n : Nat) (r : Run) : Option Final :=
  match r.iterate n with
  | .running _ => none
  | .ended r o => some (r.final o)

/-- What a run of the machine leaves if it ends within `n` instructions; nothing is logged. -/
def Machine.finalAfter (n : Nat) (m : Machine) (c : Console) : Option Final :=
  Run.finalAfter n ⟨m, c, false, 0, #[]⟩

/-- A run ends as `final` iff some number of instructions brings it there. -/
lemma Run.exists_ends_iff {r : Run} {final : Final} :
    (∃ r' o, r.Ends r' o ∧ r'.final o = final) ↔ ∃ n, r.finalAfter n = some final := by
  constructor
  · rintro ⟨r', o, ⟨n, hn⟩, rfl⟩
    exact ⟨n, by rw [finalAfter, hn]⟩
  · rintro ⟨n, hn⟩
    rw [finalAfter] at hn
    cases hr : r.iterate n with
    | running r' => simp [hr] at hn
    | ended r' o =>
      simp only [hr, Option.some.injEq] at hn
      exact ⟨r', o, ⟨n, hr⟩, hn⟩

/-! ### The log does not matter -/

section Log

variable {m : Machine} {c : Console} {n : Nat} {r r' : Run}

lemma Run.finalAfter_congr (r' r : Run) (ha : r.Alike r')
    (hlt : r.machine.tape.pointer < r.machine.tape.length) (n : Nat) :
    r'.finalAfter n = r.finalAfter n := by
  induction n generalizing r r' with
  | zero => rfl
  | succ n ih =>
    have hadv := Run.advance_alike (Or.inl hlt) ha (Run.not_starves hlt)
    unfold Run.finalAfter
    rw [Run.iterate, Run.iterate]
    generalize hr : r.advance = x, hr' : r'.advance = y at hadv
    cases hadv with
    | running h => exact ih _ _ h ((Run.moves_of_advance hr).pointer_lt hlt)
    | ended h =>
      obtain ⟨⟨hm, hc⟩, ho⟩ := h
      dsimp only at hm hc ho
      simp only [Run.final, hm, hc, ho]

/-- What a run leaves is for its machine and its channels to say. -/
lemma Run.finalAfter_eq (hlt : r.machine.tape.pointer < r.machine.tape.length) (n : Nat) :
    r.finalAfter n = r.machine.finalAfter n r.console :=
  Run.finalAfter_congr r ⟨r.machine, r.console, false, 0, #[]⟩ ⟨rfl, rfl⟩ hlt n

lemma Machine.finalAfter_of_step (hlt : m.tape.pointer < m.tape.length) (n : Nat) :
    m.finalAfter (n + 1) c =
      match m.step c with
      | .goes m' c' => m'.finalAfter n c'
      | .stops o c' => some ⟨o, m.tape, c', m.ip, m.loops.toList⟩ := by
  unfold Machine.finalAfter
  rw [Run.finalAfter, Run.iterate, Run.advance_eq hlt]
  cases hs : m.step c with
  | goes m' c' =>
    have hlt' := (Run.moves_of_step (r := ⟨m, c, false, 0, #[]⟩) hlt hs).pointer_lt hlt
    exact Run.finalAfter_congr _ _ ⟨by simp, by simp⟩ hlt' n
  | stops o c' => rfl

/-- One instruction, and what the run leaves after it. -/
lemma Machine.finalAfter_succ (hlt : m.tape.pointer < m.tape.length) (n : Nat) :
    m.finalAfter (n + 1) c =
      match m.next with
      | .halt => some ⟨.done, m.tape, c, m.ip, m.loops.toList⟩
      | .fail f => some ⟨.failed f, m.tape, c, m.ip, m.loops.toList⟩
      | .crash => some ⟨.crashed, m.tape, c, m.ip, m.loops.toList⟩
      | .emit b =>
        match c.put b with
        | (.ok (), c') => m.forward.finalAfter n c'
        | (.error f, c') => some ⟨.failed (.io m.ip f), m.tape, c', m.ip, m.loops.toList⟩
      | .accept =>
        match c.take with
        | (.ok none, c') => m.forward.finalAfter n c'
        | (.ok (some b), c') => (m.store b).forward.finalAfter n c'
        | (.error f, c') => some ⟨.failed (.io m.ip f), m.tape, c', m.ip, m.loops.toList⟩
      | a => (m.perform a).forward.finalAfter n c := by
  rw [Machine.finalAfter_of_step hlt, Machine.step]
  cases m.next with
  | emit b => rcases hp : c.put b with ⟨_ | _, c'⟩ <;> simp only [hp]
  | accept => rcases c.take with ⟨_ | _ | b, c'⟩ <;> rfl
  | _ => rfl

end Log

end Brainfuck
