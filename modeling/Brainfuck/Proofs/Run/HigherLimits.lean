import Brainfuck.Proofs.Run.Advance

/-!
Higher limits. A run on a longer tape, and with room for more loops, does the same instruction by
instruction, until the run within the lower limits fails over one of them
(`Run.iterate_within_higher`). Only two checks ask for a limit, the one of a move to the right and the
one at a `[` that is entered, and both let pass with higher limits what they let pass with lower ones.

The cells that are added are never looked at, since the pointer stays where the shorter tape has it.
-/

namespace Brainfuck

/-- The tape with `k` more cells, all of them zero. -/
def Tape.pad (k : Nat) (t : Tape) : Tape := ⟨t.cells ++ zeros k, t.pointer⟩

/-- The machine on a tape with `k` more cells and with room for `depth` loops. -/
def Machine.raise (k depth : Nat) (m : Machine) : Machine :=
  ⟨m.program, m.tape.pad k, ⟨m.loops.entries, depth⟩, m.ip⟩

/-- An event of a run on a tape with `k` more cells. -/
def Event.raise (k : Nat) : Event → Event
  | .started length tape => .started length (tape + k)
  | e => e

/-- The run on a tape with `k` more cells and with room for `depth` loops. -/
def Run.raise (k depth : Nat) (r : Run) : Run :=
  ⟨r.machine.raise k depth, r.console, r.traced, r.steps, r.log.map (Event.raise k)⟩

/-- Whether a run has failed over one of its limits. -/
def Outcome.overLimit : Outcome → Bool
  | .failed (.outOfBounds _ _ .high) => true
  | .failed (.stackOverflow _ _) => true
  | _ => false

/-! ### Longer tapes -/

namespace Tape

variable {t : Tape} {k n : Nat}

lemma toList_pad (k : Nat) (t : Tape) : (t.pad k).toList = t.toList ++ List.replicate k 0 := by
  simp [pad, toList, zeros_data]

lemma length_pad (k : Nat) (t : Tape) : (t.pad k).length = t.length + k := by
  rw [← length_toList, toList_pad, List.length_append, List.length_replicate, length_toList]

lemma pad_blank (k n : Nat) : (blank n).pad k = blank (n + k) := by
  refine ext_toList ?_ rfl
  rw [toList_pad, toList_blank, toList_blank, List.replicate_append_replicate]

lemma get?_pad (h : t.pointer < t.length) (k : Nat) : (t.pad k).get? = t.get? := by
  rw [get?_eq, get?_eq, toList_pad]
  exact List.getElem?_append_left h

lemma set_pad (h : t.pointer < t.length) (b : UInt8) : (t.pad k).set b = (t.set b).pad k := by
  refine ext_toList ?_ ?_
  · rw [toList_set, toList_pad, toList_pad, toList_set]
    exact List.set_append_left t.pointer b h
  · rw [pointer_set]
    exact (pointer_set t b).symm

lemma modify_pad (h : t.pointer < t.length) (f : UInt8 → UInt8) :
    (t.pad k).modify f = (t.modify f).pad k := by
  obtain ⟨b, hb⟩ := exists_get? h
  rw [modify_eq, modify_eq, get?_pad h, hb]
  exact set_pad h (f b)

end Tape

/-! ### What a machine does within higher limits -/

namespace Machine

variable {p : Program} {l : Limits} {m : Machine} {k depth : Nat}

lemma raise_new {l' : Limits} (h : l.tapeSize ≤ l'.tapeSize) :
    (new p l).raise (l'.tapeSize - l.tapeSize) l'.stackDepth = new p l' := by
  simp only [raise, new, Tape.pad_blank, LoopStack.withCapacity]
  rw [Nat.add_sub_cancel' h]

/-- **What is done next** is the same, unless it is a failure over a limit. -/
theorem next_raise (hc : m.loops.capacity ≤ depth) (hlt : m.tape.pointer < m.tape.length)
    (hok : ∀ o, m.next.outcome? = some o → ¬ o.overLimit) : (m.raise k depth).next = m.next := by
  have hget : (m.raise k depth).tape.get? = m.tape.get? := Tape.get?_pad hlt k
  have hlen : (m.raise k depth).tape.length = m.tape.length + k := Tape.length_pad k m.tape
  have hch := m.chooses_next
  generalize m.next = a at hch hok
  refine Chooses.next_eq ?_ ?_
  · cases hch with
    | halt hi he => exact .halt hi he
    | unterminated hi he => exact .unterminated hi he
    | pass hi hb => exact .pass hi hb
    | right hb hr =>
      refine .right hb ?_
      rw [hlen]
      show m.tape.pointer + 1 < m.tape.length + k
      omega
    | high => exact absurd rfl (hok _ rfl)
    | left hb h0 => exact .left hb h0
    | low hb h0 => exact .low hb h0
    | increment hb hcell => exact .increment hb (hget ▸ hcell)
    | decrement hb hcell => exact .decrement hb (hget ▸ hcell)
    | emit hb hcell => exact .emit hb (hget.trans hcell)
    | accept hb => exact .accept hb
    | enter hb hcell h0 hd => exact .enter hb (hget.trans hcell) h0 (Nat.lt_of_lt_of_le hd hc)
    | overflow => exact absurd rfl (hok _ rfl)
    | skip hb hcell hj => exact .skip hb (hget.trans hcell) hj
    | opening hb hcell hj => exact .opening hb (hget.trans hcell) hj
    | again hb ht hcell h0 => exact .again hb ht (hget.trans hcell) h0
    | leave hb ht hcell => exact .leave hb ht (hget.trans hcell)
    | closing hb ht => exact .closing hb ht
    | crash hb hcell => exact .crash hb (hget.trans hcell)
  · rintro rfl
    cases hch with
    | crash _ hcell =>
      obtain ⟨b, hb⟩ := Tape.exists_get? hlt
      rw [hb] at hcell
      cases hcell

lemma perform_raise (hlt : m.tape.pointer < m.tape.length) (a : Action) :
    (m.raise k depth).perform a = (m.perform a).raise k depth := by
  cases a with
  | increment | decrement =>
    simp only [perform, raise, Tape.increment, Tape.decrement, Tape.modify_pad hlt]
  | _ => rfl

end Machine

/-- A machine with the invariant, on a tape with cells, does the same within higher limits. -/
lemma carries_raise {p : Program} {l : Limits} {k depth : Nat} (hl : 1 ≤ l.tapeSize)
    (hd : l.stackDepth ≤ depth) : Carries (Machine.Sound p l) (fun o => ¬ o.overLimit)
      (Machine.raise k depth) id where
  moves _ _ hm h := h.sound hm
  pointer_lt _ hm := hm.pointer_lt hl
  cell _ hm := Tape.get?_pad (hm.pointer_lt hl) k
  pointer _ := rfl
  ip _ := rfl
  instr _ _ _ := rfl
  next m hm hok := by
    rw [Action.relocate_id]
    exact Machine.next_raise (hm.capacity.trans_le hd) (hm.pointer_lt hl) hok
  perform m hm _ := by
    rw [Action.relocate_id, Machine.perform_raise (hm.pointer_lt hl)]
    rfl
  store m hm b := by
    simp only [Machine.store, Machine.raise, Machine.forward, Tape.set_pad (hm.pointer_lt hl)]

/-! ### Runs -/

namespace Run

variable {p : Program} {l l' : Limits}

lemma raise_start (ht : l.tapeSize ≤ l'.tapeSize) (p : Program) (c : Call) :
    (c.start (.new p l)).raise (l'.tapeSize - l.tapeSize) l'.stackDepth = c.start (.new p l') := by
  have hlen : (Machine.new p l).tape.length = l.tapeSize := Tape.length_blank _
  have hlen' : (Machine.new p l').tape.length = l'.tapeSize := Tape.length_blank _
  have hsum : l.tapeSize + (l'.tapeSize - l.tapeSize) = l'.tapeSize := by omega
  simp only [raise, Call.start, start, Machine.raise_new ht, hlen, hlen', List.map_toArray,
    List.map_cons, List.map_nil, Event.raise, hsum]
  rfl

lemma iterate_raise (hl : 1 ≤ l.tapeSize) (ht : l.tapeSize ≤ l'.tapeSize)
    (hd : l.stackDepth ≤ l'.stackDepth) (c : Call) {n : Nat}
    (hok : ∀ r o, (c.start (.new p l)).iterate n = .ended r o → ¬ o.overLimit) :
    (c.start (.new p l')).iterate n = ((c.start (.new p l)).iterate n).map
      (raise (l'.tapeSize - l.tapeSize) l'.stackDepth) id := by
  have hcarries : Carries _ _ (Machine.raise (l'.tapeSize - l.tapeSize) l'.stackDepth) id :=
    carries_raise (p := p) hl hd
  have hshift : Event.Shifts id 0 (Event.raise (l'.tapeSize - l.tapeSize)) :=
    ⟨fun _ _ _ _ _ => rfl, fun _ => rfl⟩
  have h := hcarries.iterate hshift (Array.map (Event.raise _)) (fun log e _ => Array.map_push)
    (Machine.sound_new p l) (r := c.start (.new p l)) Nat.one_pos hok
  have hid : Outcome.relocate id = id := funext Outcome.relocate_id
  rw [← raise_start ht, ← hid]
  exact h

/-- **Higher limits change nothing but failures over the lower ones.** On a longer tape, and with
room for more loops, a run is instruction by instruction the run within the lower limits, its tape
continued by zeros, for as long as that one has not failed over a limit. If that one ends otherwise,
this one ends with the same outcome and has made the same calls. -/
theorem iterate_within_higher (p : Program) (hl : 1 ≤ l.tapeSize) (ht : l.tapeSize ≤ l'.tapeSize)
    (hd : l.stackDepth ≤ l'.stackDepth) (c : Call) :
    let lower := c.start (.new p l)
    let higher := c.start (.new p l')
    let k := l'.tapeSize - l.tapeSize
    (∀ n r, lower.iterate n = .running r →
      higher.iterate n = .running (r.raise k l'.stackDepth)) ∧
    (∀ n r o, lower.iterate n = .ended r o → ¬ o.overLimit →
      higher.iterate n = .ended (r.raise k l'.stackDepth) o) ∧
    (∀ r o, lower.Ends r o → ¬ o.overLimit → ∃ r', higher.Ends r' o ∧
      r'.console = r.console ∧ r'.machine.ip = r.machine.ip ∧
      r'.machine.loops.toList = r.machine.loops.toList ∧
      r'.machine.tape.pointer = r.machine.tape.pointer ∧
      r'.machine.tape.toList = r.machine.tape.toList ++ List.replicate k 0) := by
  intro lower higher k
  have hended : ∀ n r o, lower.iterate n = .ended r o → ¬ o.overLimit →
      higher.iterate n = .ended (r.raise k l'.stackDepth) o := by
    intro n r o hn ho
    rw [iterate_raise hl ht hd c, hn]
    · rfl
    · intro r' o' hn'
      rw [hn] at hn'
      cases hn'
      exact ho
  refine ⟨?_, hended, ?_⟩
  · intro n r hn
    rw [iterate_raise hl ht hd c, hn]
    · rfl
    · intro r' o' hn'
      rw [hn] at hn'
      cases hn'
  · rintro r o ⟨n, hn⟩ ho
    exact ⟨r.raise k l'.stackDepth, ⟨n, hended n r o hn ho⟩, rfl, rfl, rfl, rfl,
      Tape.toList_pad k r.machine.tape⟩

/-- `>+[<]` needs two cells and one loop; on five cells, and with room for three loops, it comes to
the same end. -/
theorem iterate_within_higher_loop :
    let p : Program := .ofList [0x3e, 0x2b, 0x5b, 0x3c, 0x5d]
    let c : Call := ⟨.ofScripts [] [] [], true⟩
    ∃ r', (c.start (.new p ⟨5, 3⟩)).Ends r' .done ∧ r'.machine.ip = 5 ∧
      r'.machine.tape.toList = [0, 1, 0, 0, 0] := by
  intro p c
  obtain ⟨-, -, hends⟩ := iterate_within_higher p (show 1 ≤ (⟨2, 1⟩ : Limits).tapeSize by decide)
    (show 2 ≤ (⟨5, 3⟩ : Limits).tapeSize by decide) (by decide) c
  have ho : ((c.start (.new p ⟨2, 1⟩)).iterate 6).outcome? = some .done := by decide +kernel
  have hip : ((c.start (.new p ⟨2, 1⟩)).iterate 6).machine.ip = 5 := by decide +kernel
  have htape : ((c.start (.new p ⟨2, 1⟩)).iterate 6).machine.tape.toList = [0, 1] := by
    decide +kernel
  cases hn : (c.start (.new p ⟨2, 1⟩)).iterate 6 with
  | running r =>
    rw [hn] at ho
    cases ho
  | ended r o =>
    rw [hn] at ho hip htape
    cases ho
    obtain ⟨r', he, -, hip', -, -, htape'⟩ := hends r .done ⟨6, hn⟩ (by decide)
    exact ⟨r', he, hip'.trans hip, by rw [htape']; exact congrArg (· ++ _) htape⟩

end Run

end Brainfuck
