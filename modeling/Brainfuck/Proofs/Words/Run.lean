import Brainfuck.Proofs.Run.Invariant
import Brainfuck.Proofs.Words.Search

/-!
Machines and runs with words of 64 bits. The next instruction and the pointer are words, and so are the
positions on the stack and its capacity; one is added to them and taken from them without a check, and
would wrap around at the ends of their range.

On a program and a tape of less than 2^63 bytes this never happens (`WordRun.toProgress_advance`): the
machine stands inside its program and the pointer on the tape, so there is always room for one more. A run
with words is therefore what the same run is with numbers, from one instruction to the next and as a
whole.
-/

namespace Brainfuck

/-- A machine with words for numbers. -/
structure WordMachine where
  program : Program
  cells : ByteArray
  pointer : UInt64
  /-- The positions of the loops that are open, the innermost last. -/
  entries : Array UInt64
  capacity : UInt64
  ip : UInt64

/-- A run of such a machine. -/
structure WordRun where
  machine : WordMachine
  console : Console
  traced : Bool
  steps : Nat
  log : Array Event

/-- Such a run after some instructions. -/
inductive WordProgress where
  | running (run : WordRun)
  | ended (run : WordRun) (outcome : Outcome)

namespace WordMachine

/-- The cells with the pointer on the one that its word stands for. -/
def tape (w : WordMachine) : Tape := ⟨w.cells, w.pointer.toNat⟩

/-- The number of cells. -/
def length (w : WordMachine) : UInt64 := .ofNat w.cells.size

/-- The number of loops that are open. -/
def depth (w : WordMachine) : UInt64 := .ofNat w.entries.size

/-- The length of the program. -/
def size (w : WordMachine) : UInt64 := .ofNat w.program.size

def forward (w : WordMachine) : WordMachine := { w with ip := w.ip + 1 }

def right (w : WordMachine) : WordMachine := { w with pointer := w.pointer + 1 }

def left (w : WordMachine) : WordMachine := { w with pointer := w.pointer - 1 }

/-- The machine with other bytes in its cells. -/
def withCells (w : WordMachine) (t : Tape) : WordMachine := { w with cells := t.cells }

def enter (w : WordMachine) : WordMachine := { w with entries := w.entries.push w.ip }

def leave (w : WordMachine) : WordMachine := { w with entries := w.entries.pop }

def jump (w : WordMachine) (target : UInt64) : WordMachine := { w with ip := target }

/-- The machine with the numbers for which its words stand. -/
def toMachine (w : WordMachine) : Machine :=
  ⟨w.program, w.tape, ⟨w.entries.map UInt64.toNat, w.capacity.toNat⟩, w.ip.toNat⟩

/-- The machine with words for its numbers. -/
def ofMachine (m : Machine) : WordMachine :=
  ⟨m.program, m.tape.cells, .ofNat m.tape.pointer, m.loops.entries.map .ofNat,
    .ofNat m.loops.capacity, .ofNat m.ip⟩

end WordMachine

namespace WordRun

/-- The run after an instruction that has left `m` and `c`, with `m` one position further on. -/
def record (w : WordRun) (m : WordMachine) (c : Console) (instr : Instr) : WordProgress :=
  if w.traced then
    match m.tape.get? with
    | some cell =>
      .running ⟨m.forward, c, w.traced, w.steps + 1,
        w.log.push (.executed w.steps w.machine.ip.toNat m.pointer.toNat cell instr)⟩
    | none => .ended ⟨m, c, w.traced, w.steps, w.log⟩ .crashed
  else
    .running ⟨m.forward, c, w.traced, w.steps + 1, w.log⟩

/-- The run after an instruction. -/
def execute (w : WordRun) : Instr → WordProgress
  | .right =>
    if w.machine.pointer + 1 < w.machine.length then w.record w.machine.right w.console .right
    else .ended w
      (.failed (.outOfBounds w.machine.ip.toNat w.machine.pointer.toNat .high))
  | .left =>
    if w.machine.pointer = 0 then .ended w
      (.failed (.outOfBounds w.machine.ip.toNat w.machine.pointer.toNat .low))
    else w.record w.machine.left w.console .left
  | .increment =>
    if w.machine.tape.get?.isSome then
      w.record (w.machine.withCells w.machine.tape.increment) w.console .increment
    else .ended w .crashed
  | .decrement =>
    if w.machine.tape.get?.isSome then
      w.record (w.machine.withCells w.machine.tape.decrement) w.console .decrement
    else .ended w .crashed
  | .output =>
    match w.machine.tape.get? with
    | none => .ended w .crashed
    | some b =>
      match w.console.put b with
      | (.ok (), c) => w.record w.machine c .output
      | (.error fault, c) =>
        .ended { w with console := c } (.failed (.io w.machine.ip.toNat fault))
  | .input =>
    match w.console.take with
    | (.ok none, c) => w.record w.machine c .input
    | (.ok (some b), c) =>
      if w.machine.tape.get?.isSome then
        w.record (w.machine.withCells (w.machine.tape.set b)) c .input
      else .ended { w with console := c } .crashed
    | (.error fault, c) =>
      .ended { w with console := c } (.failed (.io w.machine.ip.toNat fault))
  | .loopStart =>
    match w.machine.tape.get? with
    | none => .ended w .crashed
    | some b =>
      if b = 0 then
        match w.machine.program.partnerOnWords w.machine.ip .forward with
        | .ok (some target) => w.record (w.machine.jump target) w.console .loopStart
        | .ok none => .ended w (.failed (.unmatched w.machine.ip.toNat .opening))
        | .error _ => .ended w .crashed
      else if w.machine.capacity ≤ w.machine.depth then
        .ended w (.failed (.stackOverflow w.machine.ip.toNat w.machine.capacity.toNat))
      else w.record w.machine.enter w.console .loopStart
  | .loopEnd =>
    match w.machine.entries.back? with
    | none => .ended w (.failed (.unmatched w.machine.ip.toNat .closing))
    | some target =>
      match w.machine.tape.get? with
      | none => .ended w .crashed
      | some b =>
        if b = 0 then w.record w.machine.leave w.console .loopEnd
        else w.record (w.machine.jump target) w.console .loopEnd

/-- The run after its next instruction. -/
def advance (w : WordRun) : WordProgress :=
  if w.machine.ip < w.machine.size then
    match w.machine.program.instr? w.machine.ip.toNat with
    | some instr => w.execute instr
    | none => .running { w with machine := w.machine.forward }
  else if w.machine.entries.isEmpty then
    .ended { w with log := w.log.push (.finished w.steps) } .done
  else
    .ended w (.failed (.unterminated w.machine.depth.toNat))

/-- The run after at most `fuel` instructions. -/
def iterate : Nat → WordRun → WordProgress
  | 0, w => .running w
  | fuel + 1, w =>
    match w.advance with
    | .running w => iterate fuel w
    | .ended w o => .ended w o

/-- The run with the numbers for which its words stand. -/
def toRun (w : WordRun) : Run :=
  ⟨w.machine.toMachine, w.console, w.traced, w.steps, w.log⟩

end WordRun

/-- The same with numbers. -/
def WordProgress.toProgress : WordProgress → Progress
  | .running w => .running w.toRun
  | .ended w o => .ended w.toRun o

variable {p : Program} {l : Limits} {m : Machine} {r : Run} {w : WordRun} {n : Nat}

/-! ### Machines -/

namespace WordMachine

variable {w : WordMachine}

/-! The tests -/

lemma ip_lt_size_iff (h : w.program.size < 2 ^ 64) :
    w.ip < w.size ↔ w.toMachine.ip < w.toMachine.program.size := by
  unfold size
  rw [UInt64.lt_iff_toNat_lt, Word.toNat_ofNat h]
  rfl

lemma pointer_succ_lt_length_iff (h : w.pointer.toNat + 1 < 2 ^ 64) (hlength : w.cells.size < 2 ^ 64) :
    w.pointer + 1 < w.length ↔ w.toMachine.tape.pointer + 1 < w.toMachine.tape.length := by
  unfold length
  rw [UInt64.lt_iff_toNat_lt, Word.toNat_succ h, Word.toNat_ofNat hlength]
  rfl

lemma toNat_depth (h : w.entries.size < 2 ^ 64) : w.depth.toNat = w.toMachine.loops.depth := by
  unfold depth
  rw [Word.toNat_ofNat h]
  exact Array.size_map.symm

lemma capacity_le_depth_iff (h : w.entries.size < 2 ^ 64) :
    w.capacity ≤ w.depth ↔ w.toMachine.loops.isFull := by
  rw [UInt64.le_iff_toNat_le, toNat_depth h, LoopStack.isFull, decide_eq_true_eq]
  rfl

lemma isEmpty_loops (w : WordMachine) : w.toMachine.loops.isEmpty = w.entries.isEmpty := by
  unfold toMachine LoopStack.isEmpty Array.isEmpty
  simp

lemma top?_loops (w : WordMachine) : w.toMachine.loops.top? = w.entries.back?.map UInt64.toNat := by
  unfold toMachine LoopStack.top?
  simp

/-! What is done -/

lemma toMachine_forward (h : w.ip.toNat + 1 < 2 ^ 64) :
    w.forward.toMachine = w.toMachine.forward := by
  unfold forward toMachine Machine.forward
  rw [Word.toNat_succ h]
  rfl

lemma toMachine_right (h : w.pointer.toNat + 1 < 2 ^ 64) :
    w.right.toMachine = w.toMachine.perform .right := by
  unfold right toMachine Machine.perform Tape.right tape
  rw [Word.toNat_succ h]

lemma toMachine_left (h : w.pointer ≠ 0) : w.left.toMachine = w.toMachine.perform .left := by
  unfold left toMachine Machine.perform Tape.left tape
  rw [Word.toNat_pred h]

/-- A tape with the pointer where it was. -/
lemma toMachine_withCells {t : Tape} (h : t.pointer = w.tape.pointer) :
    (w.withCells t).toMachine = { w.toMachine with tape := t } := by
  unfold withCells toMachine tape
  have hp : t.pointer = w.pointer.toNat := h
  rw [← hp]

lemma toMachine_enter (w : WordMachine) : w.enter.toMachine = w.toMachine.perform .enter := by
  unfold enter toMachine Machine.perform LoopStack.add
  rw [Array.map_push]
  rfl

lemma toMachine_leave (w : WordMachine) : w.leave.toMachine = w.toMachine.perform .leave := by
  unfold leave toMachine Machine.perform LoopStack.drop
  rw [Array.map_pop]
  rfl

end WordMachine

namespace WordRun

/-- An instruction that has left a machine with words, which stands for `m'`. -/
lemma toProgress_record {m : WordMachine} {m' : Machine} (hm : m.toMachine = m')
    (h : m.ip.toNat + 1 < 2 ^ 64) (c : Console) (a : Instr) :
    (w.record m c a).toProgress =
      Run.record m' c w.traced w.steps w.log w.machine.ip.toNat a := by
  subst hm
  have htape : m.toMachine.tape = m.tape := rfl
  unfold record Run.record
  rw [htape, ← WordMachine.toMachine_forward h]
  cases w.traced
  · rfl
  · cases m.tape.get? <;> rfl

/-! ### One instruction -/

section Execute

variable (hm : w.machine.toMachine.Sound p l) (hsize : p.size < 2 ^ 63)
  (hlength : l.tapeSize < 2 ^ 63)

include hm hsize

/-- From a position in the program the next one is a word as well. -/
lemma succ_lt_of_instr {i : Nat} {a : Instr} (hb : w.machine.program.instr? i = some a) :
    i + 1 < 2 ^ 64 := by
  have hlt : i < w.machine.program.size := Program.lt_of_instr? hb
  have hprogram : w.machine.program = p := hm.program
  rw [hprogram] at hlt
  omega

omit hsize in
include hlength in
/-- From the pointer the next cell has a word as well, whether the tape has it or not. -/
lemma pointer_succ_lt : w.machine.pointer.toNat + 1 < 2 ^ 64 := by
  have hlen := hm.length
  have hin := hm.inRange
  unfold Tape.InRange at hin
  rw [hlen] at hin
  have hp : w.machine.toMachine.tape.pointer = w.machine.pointer.toNat := rfl
  omega

omit hsize in
/-- The stack has a word for its depth. -/
lemma depth_lt : w.machine.entries.size < 2 ^ 64 := by
  have hdepth := hm.depth_le
  rw [← hm.capacity] at hdepth
  have hcapacity : w.machine.toMachine.loops.capacity < 2 ^ 64 := w.machine.capacity.toNat_lt
  have hentries : w.machine.toMachine.loops.depth = w.machine.entries.size := Array.size_map
  omega

/-- A `[` with words passes over its loop or enters it, as it does with numbers. -/
lemma toProgress_loopStart (hb : w.machine.program.instr? w.machine.ip.toNat = some .loopStart) :
    (w.execute .loopStart).toProgress = w.toRun.advance := by
  have hip := succ_lt_of_instr hm hsize hb
  have htape : w.machine.toMachine.tape = w.machine.tape := rfl
  have hnext := Machine.next_of_instr (m := w.machine.toMachine) hb
  show _ = Run.advance ⟨w.machine.toMachine, w.console, w.traced, w.steps, w.log⟩
  rw [Run.advance, hnext]
  simp only [execute, Machine.actionOf, htape]
  cases w.machine.tape.get? with
  | none => rfl
  | some b =>
    dsimp only
    by_cases h0 : b = 0
    · rw [if_pos h0, if_pos h0]
      have hprogram : w.machine.program = p := hm.program
      have hpartner := Program.partnerOnWords_eq (hprogram ▸ hsize) (Program.lt_of_instr? hb) .forward
      rw [Program.partner_forward] at hpartner
      cases hfound : w.machine.program.partnerOnWords w.machine.ip .forward with
      | error e =>
        rw [hfound] at hpartner
        cases hpartner
      | ok target =>
        rw [hfound] at hpartner
        have hend : w.machine.toMachine.program.loopEnd? w.machine.toMachine.ip =
            target.map UInt64.toNat := (Except.ok.inj hpartner).symm
        rw [hend]
        cases target with
        | none => rfl
        | some target =>
          -- the place that is found is in the program
          obtain ⟨-, hcl, -⟩ := Program.loopEnd?_eq_some_iff.mp hend
          rw [← instr?_eq] at hcl
          exact toProgress_record (m := w.machine.jump target) rfl
            (succ_lt_of_instr hm hsize hcl) _ _
    · rw [if_neg h0, if_neg h0]
      have hiff := WordMachine.capacity_le_depth_iff (depth_lt hm)
      by_cases hfull : w.machine.toMachine.loops.isFull
      · rw [if_pos (hiff.mpr hfull), if_pos hfull]
        rfl
      · rw [if_neg (hfull ∘ hiff.mp), if_neg hfull]
        exact toProgress_record (WordMachine.toMachine_enter _) hip _ _

/-- A `]` with words goes back to its loop or leaves it, as it does with numbers. -/
lemma toProgress_loopEnd (hb : w.machine.program.instr? w.machine.ip.toNat = some .loopEnd) :
    (w.execute .loopEnd).toProgress = w.toRun.advance := by
  have hip := succ_lt_of_instr hm hsize hb
  have htape : w.machine.toMachine.tape = w.machine.tape := rfl
  have hnext := Machine.next_of_instr (m := w.machine.toMachine) hb
  show _ = Run.advance ⟨w.machine.toMachine, w.console, w.traced, w.steps, w.log⟩
  rw [Run.advance, hnext]
  have htop := w.machine.top?_loops
  simp only [execute, Machine.actionOf, htape, htop]
  cases hback : w.machine.entries.back? with
  | none => rfl
  | some target =>
    dsimp only [Option.map_some]
    cases w.machine.tape.get? with
    | none => rfl
    | some b =>
      dsimp only
      by_cases h0 : b = 0
      · rw [if_pos h0, if_pos h0]
        exact toProgress_record (WordMachine.toMachine_leave _) hip _ _
      · rw [if_neg h0, if_neg h0]
        -- and so is the place on the stack
        rw [hback, Option.map_some] at htop
        have hopen := hm.instr?_top htop
        rw [← hm.program] at hopen
        exact toProgress_record (m := w.machine.jump target) rfl
          (succ_lt_of_instr hm hsize hopen) _ _

include hlength

/-- **One instruction** with words. -/
theorem toProgress_execute {a : Instr}
    (hb : w.machine.program.instr? w.machine.ip.toNat = some a) :
    (w.execute a).toProgress = w.toRun.advance := by
  have hip := succ_lt_of_instr hm hsize hb
  have htape : w.machine.toMachine.tape = w.machine.tape := rfl
  have hnext := Machine.next_of_instr (m := w.machine.toMachine) hb
  cases a
  case loopStart => exact toProgress_loopStart hm hsize hb
  case loopEnd => exact toProgress_loopEnd hm hsize hb
  all_goals
    show _ = Run.advance ⟨w.machine.toMachine, w.console, w.traced, w.steps, w.log⟩
    rw [Run.advance, hnext]
    simp only [execute, Machine.actionOf]
  case right =>
    have hpointer := pointer_succ_lt hm hlength
    have hcells : w.machine.cells.size < 2 ^ 64 := by
      have hlen : w.machine.cells.size = l.tapeSize := hm.length
      omega
    have hiff := WordMachine.pointer_succ_lt_length_iff hpointer hcells
    unfold Tape.rightBound?
    by_cases hlt : w.machine.toMachine.tape.pointer + 1 < w.machine.toMachine.tape.length
    · rw [if_pos (hiff.mpr hlt), if_pos hlt]
      exact toProgress_record (WordMachine.toMachine_right hpointer) hip _ _
    · rw [if_neg (hlt ∘ hiff.mp), if_neg hlt]
      rfl
  case left =>
    unfold Tape.leftBound?
    by_cases h0 : w.machine.pointer = 0
    · have h0' : w.machine.toMachine.tape.pointer = 0 := Word.eq_zero_iff.mp h0
      rw [if_pos h0, if_pos h0']
      rfl
    · have h0' : w.machine.toMachine.tape.pointer ≠ 0 := mt Word.eq_zero_iff.mpr h0
      rw [if_neg h0, if_neg h0']
      exact toProgress_record (WordMachine.toMachine_left h0) hip _ _
  case increment | decrement =>
    rw [htape]
    split_ifs
    · exact toProgress_record (WordMachine.toMachine_withCells (Tape.pointer_modify _ _)) hip _ _
    · rfl
  case output =>
    rw [htape]
    cases w.machine.tape.get? with
    | none => rfl
    | some b =>
      dsimp only
      rcases w.console.put b with ⟨_ | _, c⟩
      · rfl
      · exact toProgress_record rfl hip c .output
  case input =>
    rw [htape]
    rcases w.console.take with ⟨_ | _ | b, c⟩
    · rfl
    · exact toProgress_record rfl hip c .input
    · dsimp only
      split_ifs
      · exact toProgress_record (WordMachine.toMachine_withCells (Tape.pointer_set _ _)) hip c .input
      · rfl

/-- **One turn** with words, whatever it comes to. -/
theorem toProgress_advance : w.advance.toProgress = w.toRun.advance := by
  have hprogram : w.machine.program = p := hm.program
  have hiff := WordMachine.ip_lt_size_iff (w := w.machine) (by rw [hprogram]; omega)
  unfold advance
  by_cases hin : w.machine.toMachine.ip < w.machine.toMachine.program.size
  · rw [if_pos (hiff.mpr hin)]
    cases hb : w.machine.program.instr? w.machine.ip.toNat with
    | some a => exact toProgress_execute hm hsize hlength hb
    | none =>
      have hnext := Machine.next_of_comment (m := w.machine.toMachine) hin hb
      have hlt : w.machine.ip.toNat < w.machine.program.size := hin
      rw [hprogram] at hlt
      have hforward := WordMachine.toMachine_forward (w := w.machine) (by omega)
      show _ = Run.advance ⟨w.machine.toMachine, w.console, w.traced, w.steps, w.log⟩
      rw [Run.advance, hnext, ← hforward]
      rfl
  · have hnext := Machine.next_of_size_le (Nat.le_of_not_lt hin)
    show _ = Run.advance ⟨w.machine.toMachine, w.console, w.traced, w.steps, w.log⟩
    rw [if_neg (hin ∘ hiff.mp), Run.advance, hnext, w.machine.isEmpty_loops,
      ← WordMachine.toNat_depth (depth_lt hm)]
    split_ifs <;> rfl

/-- **A run** with words, as far as it has come. -/
theorem toProgress_iterate (n : Nat) : (w.iterate n).toProgress = w.toRun.iterate n := by
  induction n generalizing w with
  | zero => rfl
  | succ n ih =>
    have hone := toProgress_advance hm hsize hlength
    rw [iterate, Run.iterate]
    cases ha : w.advance with
    | running w' =>
      rw [ha, WordProgress.toProgress] at hone
      rw [← hone]
      exact ih ((Run.moves_of_advance hone.symm).sound hm)
    | ended w' o =>
      rw [ha, WordProgress.toProgress] at hone
      rw [← hone]
      rfl

end Execute

end WordRun

/-! ### Words for every machine -/

/-- **Every machine that comes up has words for its numbers.** -/
theorem WordMachine.toMachine_ofMachine (hm : m.Sound p l) (hsize : p.size < 2 ^ 63)
    (hlength : l.tapeSize < 2 ^ 63) (hdepth : l.stackDepth < 2 ^ 64) :
    (ofMachine m).toMachine = m := by
  have hip := hm.ip_le
  have hcapacity := hm.capacity
  have hlen := hm.length
  have hin := hm.inRange
  have hentry : ∀ i ∈ m.loops.entries.toList, i < 2 ^ 64 := by
    intro i hi
    obtain ⟨-, hb⟩ := instrAt_of_mem_openLoops hm.loops hi
    have hlt := lt_of_instrAt hb
    rw [← Program.size_eq] at hlt
    omega
  unfold Tape.InRange at hin
  obtain ⟨program, ⟨cells, pointer⟩, ⟨⟨entries⟩, capacity⟩, ip⟩ := m
  dsimp only at hip hcapacity hlen hin hentry
  have hentries : (entries.map UInt64.ofNat).map UInt64.toNat = entries := by
    rw [List.map_map]
    refine (List.map_congr_left fun i hi => ?_).trans (List.map_id _)
    exact Word.toNat_ofNat (hentry i hi)
  unfold toMachine ofMachine tape
  simp only [List.map_toArray, hentries]
  rw [Word.toNat_ofNat (by omega), Word.toNat_ofNat (by omega), Word.toNat_ofNat (by omega)]

/-- **Arithmetic with words is exact.** For every run, with a program and a tape of less than 2^63 bytes,
there are words for the numbers of any machine that comes up, and with words its next instruction comes
to the same, and so do any number of instructions. In a search from any place of the program, in either
direction, the counter is always at least one and at most the length of the program. -/
theorem Reachable.words_exact (hsize : p.size < 2 ^ 63) (hlength : l.tapeSize < 2 ^ 63)
    (hdepth : l.stackDepth < 2 ^ 64) (hm : Reachable p l r.machine) :
    (∃ w : WordRun, w.toRun = r) ∧
    (∀ w : WordRun, w.toRun = r →
      w.advance.toProgress = r.advance ∧ ∀ n, (w.iterate n).toProgress = r.iterate n) ∧
    ∀ start : UInt64, start.toNat < p.size → ∀ d,
      (p.partnerOnWords start d).map (Option.map UInt64.toNat) = p.partner start.toNat d ∧
      ∀ s, Relation.ReflTransGen (fun s s' => p.round d s = .goesOn s') ⟨start.toNat, 1⟩ s →
        1 ≤ s.depth ∧ s.depth ≤ p.size := by
  have hsound := hm.sound
  refine ⟨?_, ?_, ?_⟩
  · have hwords := WordMachine.toMachine_ofMachine hsound hsize hlength hdepth
    refine ⟨⟨.ofMachine r.machine, r.console, r.traced, r.steps, r.log⟩, ?_⟩
    unfold WordRun.toRun
    rw [hwords]
  · rintro w rfl
    exact ⟨WordRun.toProgress_advance hsound hsize hlength,
      WordRun.toProgress_iterate hsound hsize hlength⟩
  · intro start hstart d
    refine ⟨Program.partnerOnWords_eq hsize hstart d, fun s hs => ?_⟩
    have hbounds : s.InBounds d p.size := by
      induction hs with
      | refl => exact .start d hstart
      | tail _ hr ih => exact ih.of_round hr
    exact ⟨hbounds.one_le, hbounds.depth_le⟩

/-- `,[[-]]` on one cell and with the deepest stack there can be, after a byte that is zero: the search from
its first `[` counts up to two, and with words the run comes to its end as it does with numbers. -/
theorem Reachable.words_exact_search :
    let p : Program := .ofList [0x2c, 0x5b, 0x5b, 0x2d, 0x5d, 0x5d]
    let l : Limits := ⟨1, 0xffffffffffffffff⟩
    let r := (Call.mk (.ofScripts [.byte 0] [] []) true).start (.new p l)
    p.size < 2 ^ 63 ∧ l.tapeSize < 2 ^ 63 ∧ l.stackDepth < 2 ^ 64 ∧ Reachable p l r.machine ∧
      (∃ w : WordRun, w.toRun = r ∧ (w.iterate 3).toProgress.outcome? = some .done) ∧
      (p.partnerOnWords 1 .forward).map (Option.map UInt64.toNat) = .ok (some 5) := by
  intro p l r
  have hsize : p.size < 2 ^ 63 := by decide
  have hlength : l.tapeSize < 2 ^ 63 := by decide
  have hdepth : l.stackDepth < 2 ^ 64 := by decide
  have hr : Reachable p l r.machine := .new
  obtain ⟨⟨w, hw⟩, hwords, hsearch⟩ := Reachable.words_exact hsize hlength hdepth hr
  have hend : (r.iterate 3).outcome? = some .done := by decide +kernel
  have hpartner : p.partner 1 .forward = .ok (some 5) := by decide +kernel
  refine ⟨hsize, hlength, hdepth, hr, ⟨w, hw, ?_⟩, ?_⟩
  · rw [(hwords w hw).2 3, hend]
  · exact (hsearch 1 (by decide) .forward).1.trans hpartner

end Brainfuck
