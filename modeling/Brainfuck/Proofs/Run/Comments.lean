import Brainfuck.Proofs.Run.Invariant
import Brainfuck.Proofs.Run.Relocation

/-!
A program without its comments (`Program.strip`) runs as the program does, with each position
replaced by the number of instructions before it (`Program.rank`).

The searches for a bracket agree under that map (`Program.scanForward_strip`), as comments are
nothing to them. A comment that is passed over is left out by the run of the stripped program; every
other instruction is followed, since a machine never comes to a comment by a jump
(`Machine.Sound.instr?_perform`).
-/

namespace Brainfuck

/-- Whether a byte stands for an instruction. -/
def isInstr (b : UInt8) : Bool := (Instr.ofByte? b).isSome

namespace Program

/-- The program without its comments. -/
def strip (p : Program) : Program := ⟨p.bytes.filter isInstr⟩

/-- The number of instructions before a position. -/
def rank (p : Program) (i : Nat) : Nat := (p.toList.take i).countP isInstr

variable {p : Program} {a : Instr} {i : Nat}

lemma toList_strip (p : Program) : p.strip.toList = p.toList.filter isInstr := Array.toList_filter

/-! ### Ranks -/

lemma rank_of_size_le (h : p.size ≤ i) : p.rank i = p.strip.size := by
  rw [size_eq] at h
  rw [rank, List.take_of_length_le h, size_eq, toList_strip, List.countP_eq_length_filter]

lemma rank_succ (p : Program) (i : Nat) :
    p.rank (i + 1) = p.rank i + if (p.instr? i).isSome then 1 else 0 := by
  rw [instr?_eq, instrAt, rank, rank, List.take_add_one, List.countP_append]
  cases p.toList[i]? with
  | none => rfl
  | some b =>
    rw [Option.toList_some, List.countP_singleton]
    rfl

lemma rank_succ_of_instr (h : p.instr? i = some a) : p.rank (i + 1) = p.rank i + 1 := by
  rw [rank_succ, h]
  rfl

lemma rank_succ_of_comment (h : p.instr? i = none) : p.rank (i + 1) = p.rank i := by
  rw [rank_succ, h]
  rfl

/-- An instruction keeps its place among the instructions. -/
lemma instr?_strip (h : p.instr? i = some a) : p.strip.instr? (p.rank i) = some a := by
  rw [instr?_eq, instrAt] at h ⊢
  obtain ⟨b, hb, ha⟩ := Option.bind_eq_some_iff.mp h
  obtain ⟨hi, rfl⟩ := List.getElem?_eq_some_iff.mp hb
  have hinstr : isInstr p.toList[i] := by rw [isInstr, ha]; rfl
  have hsplit : p.strip.toList =
      (p.toList.take i).filter isInstr ++ p.toList[i] :: (p.toList.drop (i + 1)).filter isInstr := by
    rw [toList_strip, ← List.filter_cons_of_pos hinstr, ← List.filter_append,
      List.getElem_cons_drop, List.take_append_drop]
  rw [hsplit, rank, List.countP_eq_length_filter, List.getElem?_append_right le_rfl, Nat.sub_self]
  exact ha

lemma rank_lt (h : p.instr? i = some a) : p.rank i < p.strip.size :=
  lt_of_instr? (instr?_strip h)

/-- Below the end of the program, and at an instruction, its rank is below the end. -/
lemma strip_size_le_iff (h : i < p.size → p.instr? i ≠ none) :
    p.strip.size ≤ p.rank i ↔ p.size ≤ i := by
  constructor
  · intro hle
    by_contra hlt
    obtain ⟨a, ha⟩ := Option.ne_none_iff_exists'.mp (h (Nat.lt_of_not_le hlt))
    exact absurd (rank_lt ha) (Nat.not_lt.mpr hle)
  · intro hle
    exact (rank_of_size_le hle).ge

/-! ### The search for the end of a loop -/

/-- **The forward search** passes over comments. -/
theorem scanForward_strip (p : Program) (inner i : Nat) :
    p.strip.scanForward inner (p.rank i) = (p.scanForward inner i).map p.rank := by
  fun_induction p.scanForward inner i with
  | case1 inner i h ho ih =>
    rw [← instr?_of_lt h] at ho
    rw [scanForward_loopStart (instr?_strip ho), ← rank_succ_of_instr ho, ih]
  | case2 i h hc =>
    rw [← instr?_of_lt h] at hc
    rw [scanForward_loopEnd (instr?_strip hc)]
    rfl
  | case3 i h hc inner ih =>
    rw [← instr?_of_lt h] at hc
    rw [scanForward_loopEnd (instr?_strip hc), if_neg (Nat.succ_ne_zero inner),
      Nat.succ_sub_one, ← rank_succ_of_instr hc, ih]
  | case4 inner i h ho hc ih =>
    rw [← instr?_of_lt h] at ho hc
    cases ha : p.instr? i with
    | none => rw [← ih, rank_succ_of_comment ha]
    | some a =>
      have hs := instr?_strip ha
      rw [← ih, rank_succ_of_instr ha, scanForward_plain (rank_lt ha)]
      · rwa [hs, ← ha]
      · rwa [hs, ← ha]
  | case5 inner i h =>
    rw [rank_of_size_le (Nat.le_of_not_lt h), scanForward_of_size_le le_rfl]
    rfl

lemma loopEnd?_strip (h : p.instr? i = some .loopStart) :
    p.strip.loopEnd? (p.rank i) = (p.loopEnd? i).map p.rank := by
  rw [loopEnd?, loopEnd?, ← rank_succ_of_instr h, scanForward_strip]

end Program

/-! ### Runs -/

variable {p : Program} {l : Limits} {m : Machine}

/-- A machine that does not pass over a comment comes to an instruction, of which it then goes one
position further on. -/
lemma Machine.Sound.instr?_perform (h : m.Sound p l) (hn : m.next.goesOn) (hp : m.next ≠ .pass) :
    p.instr? (m.perform m.next).ip ≠ none := by
  have hc := m.chooses_next
  generalize m.next = a at hc hn hp
  rw [← h.program]
  cases hc with
  | halt | unterminated | high | low | overflow | opening | closing | crash =>
    simp [Action.goesOn] at hn
  | pass => exact absurd rfl hp
  | right hb | left hb | increment hb | decrement hb | emit hb | accept hb | enter hb | leave hb =>
    exact hb ▸ Option.some_ne_none _
  | @skip j hb _ hj =>
    -- the search ends at a `]`
    obtain ⟨-, hend, -⟩ := Program.loopEnd?_eq_some_iff.mp hj
    show m.program.instr? j ≠ none
    rw [instr?_eq, hend]
    exact Option.some_ne_none _
  | @again i _ hb ht =>
    show m.program.instr? i ≠ none
    rw [h.program, h.instr?_top ht]
    exact Option.some_ne_none _

/-- The stripped machine is about to do the same, unless it is a comment that comes next. -/
lemma Machine.Sound.next_strip (h : m.Sound p l) (hp : m.next ≠ .pass) :
    (m.relocate p.rank p.strip).next = m.next.relocate p.rank := by
  have hcode : m.ip < p.size → p.instr? m.ip ≠ none := by
    intro hlt hb
    rw [← h.program] at hlt hb
    exact hp (next_of_comment hlt hb)
  have hinstr : p.strip.instr? (p.rank m.ip) = p.instr? m.ip := by
    cases hb : p.instr? m.ip with
    | some a => exact Program.instr?_strip hb
    | none =>
      refine Program.instr?_of_size_le ?_
      rw [Program.strip_size_le_iff hcode]
      by_contra hlt
      exact hcode (Nat.lt_of_not_le hlt) hb
  rw [← Machine.next_relocate] <;> rw [h.program]
  · exact Program.strip_size_le_iff hcode
  · exact hinstr
  · exact Program.loopEnd?_strip

/-- The run of the stripped program follows the run of the program, comments left out. -/
lemma follows_strip (p : Program) (l : Limits) :
    Follows (Machine.Sound p l) (Machine.relocate p.rank p.strip) (Run.relocate p.rank p.strip)
      (Outcome.relocate p.rank) (fun m => p.size - m.ip) where
  inRange _ hm := hm.inRange
  moves _ _ hm h := h.sound hm
  machine _ := rfl
  start m hm c := by
    have hsize : p.rank m.program.size = p.strip.size := by
      rw [hm.program, Program.rank_of_size_le le_rfl]
    simp only [Call.start, Run.start, Run.relocate, Machine.relocate, List.map_toArray,
      List.map_cons, List.map_nil, Event.relocate, hsize]
  advance r hm := by
    by_cases hp : r.machine.next = .pass
    · right
      obtain ⟨m, c, traced, steps, log⟩ := r
      have hc := hp ▸ m.chooses_next
      cases hc with
      | pass hlt hb =>
        rw [hm.program] at hlt hb
        refine ⟨⟨m.forward, c, traced, steps, log⟩, by rw [Run.advance, hp], ?_, ?_⟩
        · simp only [Run.relocate, Machine.relocate, Machine.forward,
            Program.rank_succ_of_comment hb]
        · show p.size - (m.ip + 1) < p.size - m.ip
          omega
    · left
      refine Run.advance_relocate (hm.next_strip hp) fun hg => ?_
      obtain ⟨a, ha⟩ := Option.ne_none_iff_exists'.mp (hm.instr?_perform hg hp)
      exact Program.rank_succ_of_instr ha

/-- **Comments do not matter.** The sessions of the program without its comments, within any limits
and with any calls, are the sessions of the program with every position replaced by the number of
instructions before it: each run ends iff the other does, with the same outcome, tape, channels and
number of steps, and its stack and its log differ in positions only. -/
theorem Session.strip_iff (p : Program) (l : Limits) (calls : List Call)
    (ends' : List (Run × Outcome)) : Session (.new p.strip l) calls ends' ↔
      ∃ ends, Session (.new p l) calls ends ∧
        ends' = ends.map (Prod.map (Run.relocate p.rank p.strip) (Outcome.relocate p.rank)) := by
  have hnew : (Machine.new p l).relocate p.rank p.strip = .new p.strip l :=
    Machine.relocate_new rfl p l
  rw [← hnew]
  exact (follows_strip p l).session_iff (Machine.sound_new p l)

end Brainfuck
