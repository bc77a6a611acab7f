import Brainfuck.Proofs.Report.Window
import Brainfuck.Proofs.Run.Absorption

/-!
Failures and their causes. What a failure tells, its position, the pointer, the number of loops, is
what holds of the machine that has failed (`Failure.HasCause`, `Machine.Stops.hasCause`), and the
report of the failure shows the byte at that position: its window of the text never leaves that byte
out, and the caret stands below it (`Report.getElem?_contextLine`), as every byte takes one column
(`Report.shown_printable`).
-/

namespace Brainfuck

/-- The failure has its cause in the machine `m`, which runs `p` within the limits `l`: it tells of
the instruction that could not be executed, and of what was in its way. -/
def Failure.HasCause (p : Program) (l : Limits) (m : Machine) : Failure → Prop
  | .outOfBounds ip pointer .low =>
    p.instr? ip = some .left ∧ pointer = 0 ∧ m.tape.pointer = pointer
  | .outOfBounds ip pointer .high =>
    p.instr? ip = some .right ∧ pointer + 1 = m.tape.length ∧ m.tape.pointer = pointer
  | .unmatched ip .opening => p.instr? ip = some .loopStart ∧ m.tape.get? = some 0
  | .unmatched ip .closing => p.instr? ip = some .loopEnd ∧ m.loops.isEmpty
  | .unterminated loops => loops = m.loops.depth ∧ 1 ≤ loops
  | .stackOverflow ip capacity => p.instr? ip = some .loopStart ∧
    (∃ b, m.tape.get? = some b ∧ b ≠ 0) ∧ capacity = l.stackDepth ∧ capacity = m.loops.depth
  | .io ip _ => p.instr? ip = some .output ∨ p.instr? ip = some .input

variable {p : Program} {l : Limits} {m : Machine} {r : Run} {f : Failure} {i : Nat}

/-! ### What a failure tells -/

/-- **A failure has its cause** in the machine that it leaves. -/
theorem Machine.Stops.hasCause (h : m.Stops (.failed f)) (hm : m.Sound p l)
    (hl : 1 ≤ l.tapeSize) : f.HasCause p l m := by
  have hlt := hm.pointer_lt hl
  have hcapacity := hm.capacity
  have hdepth := hm.depth_le
  rw [← hm.program]
  cases h with
  | fail hn =>
    have hc := hn ▸ m.chooses_next
    cases hc with
    | low hb h0 => exact ⟨hb, h0, rfl⟩
    | high hb hle => exact ⟨hb, by omega, rfl⟩
    | opening hb h0 _ => exact ⟨hb, h0⟩
    | closing hb ht =>
      refine ⟨hb, ?_⟩
      rw [LoopStack.top?_eq, List.getLast?_eq_none_iff] at ht
      simpa [LoopStack.isEmpty, LoopStack.toList] using ht
    | unterminated _ he => exact ⟨rfl, LoopStack.one_le_depth he⟩
    | overflow hb hcell h0 hfull => exact ⟨hb, ⟨_, hcell, h0⟩, hcapacity, by omega⟩
  | write _ hn => exact Or.inl (of_next_emit hn).1
  | read _ hn => exact Or.inr (instr?_of_next_accept hn)

/-! ### What the report shows -/

/-- The byte at which an instruction is read. -/
lemma Program.toList_of_instr? {a : Instr} (h : p.instr? i = some a) :
    p.toList[i]? = some a.toByte := by
  rw [instr?_eq, instrAt] at h
  obtain ⟨b, hb, ha⟩ := Option.bind_eq_some_iff.mp h
  rw [hb, Instr.eq_toByte_of_ofByte? ha]

/-- **A failure points at its cause, and its report shows it.** Each failure of a run, of any machine
that comes up, tells what holds of the machine that it leaves. Only loops that are left open have no
position; every other failure points at the next instruction, and its report consists of three lines,
the last of which has its caret below the byte of that instruction in the line before. -/
theorem Reachable.failed_at_cause (hm : Reachable p l m) (hl : 1 ≤ l.tapeSize) (c : Call)
    (he : (c.start m).Ends r (.failed f)) :
    f.HasCause p l r.machine ∧
    (f.position? = none ↔ ∃ n, f = .unterminated n) ∧
    ∀ i, f.position? = some i → i < p.size ∧ i = r.machine.ip ∧
      ∃ b column, p.toList[i]? = some b ∧
        (∀ name, Report.ofFailure name p f =
          [Report.headline name f, Report.contextLine p i, Report.caretLine i]) ∧
        (Report.caretLine i).toList = List.replicate column ' ' ++ ['^'] ∧
        (Report.contextLine p i).toList[column]? = some (Char.ofNat b.toNat) ∧
        ∀ ch ∈ (Report.contextLine p i).toList, 0x20 ≤ ch.toNat ∧ ch.toNat ≤ 0x7e := by
  obtain ⟨hsound, hstops⟩ := Machine.Sound.of_ends (r := c.start m) hm.sound he
  refine ⟨hstops.hasCause hsound hl, ?_, fun i hi => ?_⟩
  · cases f <;> simp [Failure.position?]
  · rcases hstops.position?_eq with ⟨hip, a, ha⟩ | ⟨rfl, -⟩
    · obtain rfl : r.machine.ip = i := by
        rw [hip] at hi
        exact Option.some.inj hi
      rw [hsound.program] at ha
      have hlt : r.machine.ip < p.size := Program.lt_of_instr? ha
      have hbyte := Program.toList_of_instr? ha
      refine ⟨hlt, rfl, a.toByte, _, hbyte, fun name => Report.ofFailure_eq name hip hlt,
        Report.toList_caretLine _, ?_, Report.contextLine_printable p _⟩
      rw [Report.getElem?_contextLine hlt, hbyte, Option.map_some, Report.shown_toByte]
    · cases hi

/-- Behind 40 line ends a `<` fails at the low end of the tape; the window begins at position 8, and
the caret of the report is in column 34. -/
theorem Reachable.failed_at_cause_clipped :
    let p : Program := .ofList (List.replicate 40 0x0a ++ [0x3c, 0x2b])
    let f : Failure := .outOfBounds 40 0 .low
    ∃ r, ((Call.mk (.ofScripts [] [] []) true).start (.new p ⟨2, 1⟩)).Ends r (.failed f) ∧
      f.HasCause p ⟨2, 1⟩ r.machine ∧
      Report.ofFailure (some "bf") p f = ["bf: Error: " ++ f.message,
        "  " ++ String.ofList (List.replicate 32 '.') ++ "<+",
        String.ofList (List.replicate 34 ' ') ++ "^"] := by
  intro p f
  let c : Call := ⟨.ofScripts [] [] [], true⟩
  have ho : ((c.start (.new p ⟨2, 1⟩)).iterate 41).outcome? = some (.failed f) := by
    decide +kernel
  obtain ⟨r, hr⟩ := Run.exists_ends_of_outcome? ho
  obtain ⟨hcause, -, hreport⟩ := Reachable.failed_at_cause (.new (p := p)) (by decide) c hr
  obtain ⟨-, -, -, -, -, hlines, -⟩ := hreport 40 rfl
  refine ⟨r, hr, hcause, (hlines (some "bf")).trans ?_⟩
  decide +kernel

end Brainfuck
