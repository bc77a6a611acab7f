import Brainfuck.Proofs.Run.Deeds

/-!
The log of a traced run. It tells of every executed instruction, in order, with its position and with
the pointer and the cell that it leaves (`Entry`). From these entries alone the run can be read off:

* where the next instruction is, as jumps and comments have it (`Entry.LeadsTo`, `Program.IsNext`);
* the pointer at the end, which is that of the last entry;
* each cell at the end, which is that of the last entry whose pointer was on it, since an instruction
  changes no other cell than the one it leaves the pointer on (`Machine.Moves.toList_tape`).
-/

namespace Brainfuck

/-- What the log tells of an instruction, its number apart. -/
structure Entry where
  ip : Nat
  pointer : Nat
  cell : UInt8
  instr : Instr
  deriving DecidableEq

/-- The event of an entry, which is that of the instruction with the given number. -/
def Entry.event (step : Nat) (e : Entry) : Event := .executed step e.ip e.pointer e.cell e.instr

/-- What the log tells of an executed instruction. -/
def Deed.entry (d : Deed) : Entry :=
  ⟨d.before.machine.ip, d.after.machine.tape.pointer, d.cell, d.instr⟩

/-- The position behind which a run goes on after an instruction: that of the other bracket where a
loop is passed over or repeated, and of the instruction itself otherwise. -/
def Entry.LeadsTo (p : Program) (e : Entry) (j : Nat) : Prop :=
  match e.instr with
  | .loopStart => if e.cell = 0 then Matched p.toList e.ip j else j = e.ip
  | .loopEnd => if e.cell = 0 then j = e.ip else Matched p.toList j e.ip
  | _ => j = e.ip

/-- `j` is the position of the first instruction from `i` on. -/
def Program.IsNext (p : Program) (i j : Nat) : Prop :=
  i ≤ j ∧ p.instr? j ≠ none ∧ ∀ k, i ≤ k → k < j → p.instr? k = none

/-- The cell that the last entry with the pointer at `k` tells of. -/
def lastCell? (entries : List Entry) (k : Nat) : Option UInt8 :=
  (entries.filter fun e => e.pointer = k).getLast?.map Entry.cell

variable {p : Program} {l : Limits} {m m' : Machine} {r r' : Run} {ds : List Deed} {b : UInt8}
  {i j k : Nat} {o : Outcome}

/-! ### One instruction -/

/-- **A move changes no cell** but the one on which it leaves the pointer. -/
theorem Machine.Moves.toList_tape (h : m.Moves m') (hb : m'.tape.get? = some b) :
    m'.tape.toList = m.tape.toList.set m'.tape.pointer b := by
  rw [Tape.get?_eq] at hb
  obtain ⟨hlt, hcell⟩ := List.getElem?_eq_some_iff.mp hb
  -- a move that writes nothing leaves the cell that it finds
  have hsame (ht : m'.tape.toList = m.tape.toList) :
      m'.tape.toList = m.tape.toList.set m'.tape.pointer b := by
    rw [← ht, ← hcell, List.set_getElem_self]
  have hset {c : UInt8} (ht : m'.tape = m.tape.set c) :
      m'.tape.toList = m.tape.toList.set m'.tape.pointer b := by
    have hp : m'.tape.pointer = m.tape.pointer := by rw [ht, Tape.pointer_set]
    have hl : m'.tape.toList = m.tape.toList.set m.tape.pointer c := by rw [ht, Tape.toList_set]
    rw [hp]
    simp only [hp, hl, List.getElem_set_self] at hcell
    rw [hl, hcell]
  have hmodify {f : UInt8 → UInt8} (ht : m'.tape = m.tape.modify f) :
      m'.tape.toList = m.tape.toList.set m'.tape.pointer b := by
    rw [Tape.modify_eq] at ht
    split at ht
    · exact hset ht
    · exact hsame (by rw [ht])
  cases h with
  | @act a _ _ =>
    cases a with
    | increment => exact hmodify (f := (· + 1)) rfl
    | decrement => exact hmodify (f := (· - 1)) rfl
    | _ => exact hsame rfl
  | store c _ _ => exact hset rfl

/-- The loop on the top of the stack is the one that a `]` belongs to. -/
lemma Machine.Sound.matched_top (h : m.Sound p l) (ht : m.loops.top? = some i)
    (hb : p.instr? m.ip = some .loopEnd) : Matched p.toList i m.ip := by
  have hs := h.loops
  rw [toList_eq_of_top? ht] at hs
  obtain ⟨hlt, ho, -, hin, hd⟩ := openLoops_concat hs
  rw [instr?_eq] at hb
  have hclose := depthAt_succ p.toList m.ip
  rw [hb, Instr.weight] at hclose
  exact matched_iff.mpr ⟨hlt, ho, hb, hin, by omega⟩

/-- **Where an instruction leads**, the run goes on behind. -/
theorem Machine.Moves.exists_leadsTo {a : Instr} (h : m.Moves m') (hm : m.Sound p l)
    (ha : m.program.instr? m.ip = some a) (hb : m'.tape.get? = some b) (pointer : Nat) :
    ∃ j, (⟨m.ip, pointer, b, a⟩ : Entry).LeadsTo p j ∧ m'.ip = j + 1 := by
  cases h with
  | @act action hn hg =>
    have hc := hn ▸ m.chooses_next
    cases hc with
    | halt | unterminated | high | low | overflow | opening | closing | crash =>
      simp [Action.goesOn] at hg
    | pass _ hb' => simp [hb'] at ha
    | right ha' | left ha' | increment ha' | decrement ha' | emit ha' | accept ha' =>
      obtain rfl := Option.some.inj (ha.symm.trans ha')
      exact ⟨m.ip, rfl, rfl⟩
    | enter ha' hcell h0 =>
      obtain rfl := Option.some.inj (ha.symm.trans ha')
      obtain rfl := Option.some.inj (hb.symm.trans hcell)
      exact ⟨m.ip, by simp [Entry.LeadsTo, h0], rfl⟩
    | @skip j ha' hcell hj =>
      obtain rfl := Option.some.inj (ha.symm.trans ha')
      obtain rfl := Option.some.inj (hb.symm.trans hcell)
      rw [instr?_eq] at ha
      have hmatched := (Program.loopEnd?_eq_some_iff_matched ha).mp hj
      rw [hm.program] at hmatched
      exact ⟨j, by simpa [Entry.LeadsTo] using hmatched, rfl⟩
    | @again i _ ha' ht hcell h0 =>
      obtain rfl := Option.some.inj (ha.symm.trans ha')
      obtain rfl := Option.some.inj (hb.symm.trans hcell)
      rw [hm.program] at ha
      exact ⟨i, by simpa [Entry.LeadsTo, h0] using hm.matched_top ht ha, rfl⟩
    | leave ha' _ hcell =>
      obtain rfl := Option.some.inj (ha.symm.trans ha')
      obtain rfl := Option.some.inj (hb.symm.trans hcell)
      exact ⟨m.ip, by simp [Entry.LeadsTo], rfl⟩
  | store c hn =>
    have hc := hn ▸ m.chooses_next
    cases hc with
    | accept ha' =>
      obtain rfl := Option.some.inj (ha.symm.trans ha')
      exact ⟨m.ip, rfl, rfl⟩

/-! ### Runs -/

namespace Run.Executes

/-- The log of a traced run goes on with one entry for each instruction. -/
lemma log_eq (h : r.Executes ds r') (ht : r.traced) :
    r'.steps = r.steps + ds.length ∧ r'.log.toList = r.log.toList ++
      (ds.map Deed.entry).mapIdx fun i e => e.event (r.steps + i) := by
  induction h with
  | nil => simp
  | comment ha hb _ ih =>
    obtain rfl := eq_of_comment hb ha
    exact ih ht
  | deed d _ ih =>
    obtain ⟨htraced, hsteps, hlog⟩ := d.after_eq
    rw [ht] at htraced
    rw [ht, if_pos rfl] at hlog
    obtain ⟨hsteps', hlog'⟩ := ih htraced
    refine ⟨by rw [hsteps', hsteps, List.length_cons]; omega, ?_⟩
    rw [hlog', hlog, hsteps, Array.toList_push, List.append_assoc, List.map_cons, List.mapIdx_cons]
    simp only [List.singleton_append, Nat.add_assoc, Nat.add_comm 1]
    rfl

/-- The log of a traced run that has ended, from its beginning on. -/
lemma log_stop (h : r.Executes ds r') (h0 : r.steps = 0) (ht : r.traced) (o : Outcome)
    (c : Console) : (r'.stop o c).log.toList = r.log.toList ++
      ((ds.map Deed.entry).mapIdx Entry.event ++
        if o = .done then [.finished ds.length] else []) := by
  obtain ⟨hsteps, hlog⟩ := h.log_eq ht
  simp only [h0, Nat.zero_add] at hsteps hlog
  unfold stop
  by_cases ho : o = .done
  · rw [if_pos ho, if_pos ho, Array.toList_push, hlog, hsteps, List.append_assoc]
  · rw [if_neg ho, if_neg ho, hlog, List.append_nil]

/-- An entry tells of the instruction at its position. -/
lemma instr?_entry (h : r.Executes ds r') (hm : r.machine.Sound p l) :
    ∀ e ∈ ds.map Deed.entry, p.instr? e.ip = some e.instr := by
  intro e he
  obtain ⟨d, hd, rfl⟩ := List.mem_map.mp he
  have hsound := (h.of_moves (fun _ _ hm hmoves => hmoves.sound hm) hm).2 d hd
  rw [← hsound.program]
  exact d.instr?_eq

/-- The first instruction is the next one from where the run stands. -/
lemma isNext_head (h : r.Executes ds r') (hm : r.machine.program = p) :
    ∀ e ∈ (ds.map Deed.entry).head?, p.IsNext r.machine.ip e.ip := by
  induction h with
  | nil => simp
  | @comment r r₁ r' ds ha hb _ ih =>
    obtain rfl := eq_of_comment hb ha
    intro e he
    obtain ⟨hle, he', hbetween⟩ := ih hm e he
    have hle : r.machine.ip + 1 ≤ e.ip := hle
    refine ⟨by omega, he', fun k hk hkj => ?_⟩
    by_cases hk' : k = r.machine.ip
    · rw [hk', ← hm, hb]
    · exact hbetween k (show r.machine.ip + 1 ≤ k by omega) hkj
  | deed d _ _ =>
    intro e he
    obtain rfl : d.entry = e := by simpa using he
    have hinstr : p.instr? d.before.machine.ip = some d.instr := hm ▸ d.instr?_eq
    refine ⟨le_rfl, ?_, fun k hk hkj => ?_⟩
    · rw [show d.entry.ip = d.before.machine.ip from rfl, hinstr]
      exact Option.some_ne_none _
    · exact absurd (Nat.lt_of_le_of_lt hk hkj) (Nat.lt_irrefl _)

/-- **Each entry leads to the next one.** -/
theorem isChain_entries (h : r.Executes ds r') (hm : r.machine.Sound p l) :
    (ds.map Deed.entry).IsChain fun e e' => ∃ j, e.LeadsTo p j ∧ p.IsNext (j + 1) e'.ip := by
  induction h with
  | nil => exact .nil
  | comment ha _ _ ih => exact ih ((moves_of_advance ha).sound hm)
  | @deed d r' ds hds ih =>
    have hm' := d.moves.sound hm
    obtain ⟨j, hj, hip⟩ := d.moves.exists_leadsTo hm d.instr?_eq d.get?_eq d.entry.pointer
    have hhead := hds.isNext_head hm'.program
    cases ds with
    | nil => exact .singleton _
    | cons d' ds =>
      refine .cons_cons ⟨j, hj, ?_⟩ (ih hm')
      rw [← hip]
      exact hhead d'.entry rfl

/-- **The pointer** is that of the last entry. -/
theorem pointer_eq (h : r.Executes ds r') : r'.machine.tape.pointer =
    ((ds.map Deed.entry).getLast?.map Entry.pointer).getD r.machine.tape.pointer := by
  induction h with
  | nil => rfl
  | comment ha hb _ ih =>
    obtain rfl := eq_of_comment hb ha
    exact ih
  | @deed d r' ds _ ih =>
    rw [ih, List.map_cons, List.getLast?_cons]
    cases (ds.map Deed.entry).getLast? <;> rfl

/-- **Each cell** is that of the last entry with the pointer on it. -/
theorem getElem?_eq (h : r.Executes ds r') (k : Nat) : r'.machine.tape.toList[k]? =
    (lastCell? (ds.map Deed.entry) k).or r.machine.tape.toList[k]? := by
  induction h with
  | nil => rfl
  | comment ha hb _ ih =>
    obtain rfl := eq_of_comment hb ha
    exact ih
  | @deed d r' ds _ ih =>
    have htape := d.moves.toList_tape d.get?_eq
    have hlt : d.after.machine.tape.pointer < d.before.machine.tape.toList.length := by
      have := Tape.lt_of_get? d.get?_eq
      rwa [← Tape.length_toList, htape, List.length_set] at this
    rw [ih, htape, List.map_cons]
    unfold lastCell?
    by_cases hk : d.entry.pointer = k
    · have hk' : d.after.machine.tape.pointer = k := hk
      rw [List.filter_cons_of_pos (by simpa using hk), List.getLast?_cons, ← hk',
        List.getElem?_set_self hlt]
      generalize (ds.map Deed.entry).filter _ = later
      cases later.getLast? <;> rfl
    · have hk' : d.after.machine.tape.pointer ≠ k := hk
      rw [List.filter_cons_of_neg (by simpa using hk), List.getElem?_set_ne hk']

end Run.Executes

/-- **The log tells of everything.** A traced run that ends has told of its beginning, then of each
instruction that it has executed, in order and with consecutive numbers, and then of its end if it has
come to the end of the program. The first entry is that of the first instruction from where the machine
stood, and each entry leads to the next one, over comments at most. The pointer is left where the last
entry has it, and each cell as the last entry tells that had the pointer on it; the others are as they
were. -/
theorem Reachable.log_faithful (hm : Reachable p l m) (hl : 1 ≤ l.tapeSize) (c : Console)
    (he : ((Call.mk c true).start m).Ends r o) :
    ∃ ds last, ((Call.mk c true).start m).Executes ds last ∧ last.advance = .ended r o ∧
      let entries := ds.map Deed.entry
      r.log.toList = .started p.size m.tape.length :: (entries.mapIdx Entry.event ++
        if o = .done then [.finished entries.length] else []) ∧
      (∀ e ∈ entries, p.instr? e.ip = some e.instr) ∧
      (∀ e ∈ entries.head?, p.IsNext m.ip e.ip) ∧
      (entries.IsChain fun e e' => ∃ j, e.LeadsTo p j ∧ p.IsNext (j + 1) e'.ip) ∧
      r.machine.tape.pointer = (entries.getLast?.map Entry.pointer).getD m.tape.pointer ∧
      (∀ k, r.machine.tape.toList[k]? = (lastCell? entries k).or m.tape.toList[k]?) ∧
      ∀ k, (∀ e ∈ entries, e.pointer ≠ k) →
        r.machine.tape.toList[k]? = m.tape.toList[k]? := by
  have hsound := hm.sound
  have hlt := hsound.pointer_lt hl
  obtain ⟨ds, last, hds, hlast⟩ := he.exists_executes hlt
  have hlt' := hds.pointer_lt hlt
  obtain ⟨c', -, rfl⟩ := Run.step_of_advance_ended hlt' hlast
  have hcell := hds.getElem?_eq
  refine ⟨ds, last, hds, hlast, ?_, hds.instr?_entry hsound, hds.isNext_head hsound.program,
    hds.isChain_entries hsound, hds.pointer_eq, hcell, ?_⟩
  · have hstarted : ((Call.mk c true).start m).log.toList = [.started p.size m.tape.length] := by
      rw [← hsound.program]
      rfl
    rw [hds.log_stop rfl rfl, hstarted, List.length_map]
    rfl
  · intro k hk
    have hnone : lastCell? (ds.map Deed.entry) k = none := by
      unfold lastCell?
      rw [List.filter_eq_nil_iff.mpr fun e he => by simpa using hk e he]
      rfl
    exact (hcell k).trans (by rw [hnone]; rfl)

/-- `[+]x+` on one cell passes over its loop and its comment, and increments the cell. -/
theorem Reachable.log_faithful_skip :
    let p : Program := .ofList [0x5b, 0x2b, 0x5d, 0x78, 0x2b]
    let first := (Call.mk (.ofScripts [] [] []) true).start (.new p ⟨1, 1⟩)
    ∃ r ds last, first.Ends r .done ∧ first.Executes ds last ∧
      .started 5 1 :: ((ds.map Deed.entry).mapIdx Entry.event ++ [.finished ds.length]) =
        [.started 5 1, .executed 0 0 0 0 .loopStart, .executed 1 4 0 1 .increment, .finished 2] ∧
      ((ds.map Deed.entry).IsChain fun e e' => ∃ j, e.LeadsTo p j ∧ p.IsNext (j + 1) e'.ip) ∧
      r.machine.tape.toList[0]? = (lastCell? (ds.map Deed.entry) 0).or (some 0) := by
  intro p first
  have hlog : (match first.iterate 4 with
      | .ended r .done => r.log.toList
      | _ => []) =
      [.started 5 1, .executed 0 0 0 0 .loopStart, .executed 1 4 0 1 .increment, .finished 2] := by
    decide +kernel
  split at hlog
  · rename_i r hn
    obtain ⟨ds, last, hds, -, htold, -, -, hchain, -, hcell, -⟩ :=
      Reachable.log_faithful (.new (p := p) (l := ⟨1, 1⟩)) (by decide) (.ofScripts [] [] []) ⟨4, hn⟩
    have hsize : p.size = 5 := by decide +kernel
    have htape : (Machine.new p ⟨1, 1⟩).tape.length = 1 := by decide +kernel
    have hblank : (Machine.new p ⟨1, 1⟩).tape.toList[0]? = some 0 := by decide +kernel
    refine ⟨r, ds, last, ⟨4, hn⟩, hds, ?_, hchain, hblank ▸ hcell 0⟩
    rw [← hlog, htold, hsize, htape, if_pos rfl, List.length_map]
  · cases hlog

end Brainfuck
