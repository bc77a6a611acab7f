import Brainfuck.Proofs.Run.Advance

/-!
One program behind another. In `p ++ q` a run does what it does in `p` until it comes to the end of
`p`, or needs to know what stands there: a search that succeeds in `p` finds the same `]` in `p ++ q`
(`Program.scanForward_append_left`). If it comes to the end with no loop open, it goes on as a run of
`q`, every position `p.size` further on (`Program.scanForward_append_right`): no jump leads back into
`p`, since the stack holds positions of `q` only.

`Run.iterate_append` puts the two together.
-/

namespace Brainfuck

instance : Append Program := ⟨fun p q => ⟨p.bytes ++ q.bytes⟩⟩

namespace Program

variable {p q : Program} {i j inner : Nat}

lemma bytes_append (p q : Program) : (p ++ q).bytes = p.bytes ++ q.bytes := rfl

lemma size_append (p q : Program) : (p ++ q).size = p.size + q.size := Array.size_append

lemma toList_append (p q : Program) : (p ++ q).toList = p.toList ++ q.toList :=
  Array.toList_append

lemma toList_ofList (t : List UInt8) : (ofList t).toList = t := by
  simp [ofList, toList]

lemma size_ofList (t : List UInt8) : (ofList t).size = t.length := rfl

lemma ofList_append (s t : List UInt8) : ofList (s ++ t) = ofList s ++ ofList t :=
  congrArg mk (List.append_toArray s t).symm

lemma instr?_append_left (h : i < p.size) : (p ++ q).instr? i = p.instr? i := by
  rw [instr?, instr?, bytes_append, Array.getElem?_append_left h]

lemma instr?_append_right (p q : Program) (i : Nat) :
    (p ++ q).instr? (p.size + i) = q.instr? i := by
  have h : (p ++ q).bytes[p.size + i]? = q.bytes[i]? := by
    have hle : p.bytes.size ≤ p.size + i := Nat.le_add_right _ _
    rw [bytes_append, Array.getElem?_append_right hle]
    exact congrArg (q.bytes[·]?) (Nat.add_sub_cancel_left _ _)
  rw [instr?, instr?, h]

/-! ### Searches -/

lemma lt_size_append_left (h : i < p.size) : i < (p ++ q).size := by
  rw [size_append]
  omega

/-- A search that succeeds does not look at what is put behind. -/
lemma scanForward_append_left (h : p.scanForward inner i = some j) :
    (p ++ q).scanForward inner i = some j := by
  fun_induction p.scanForward inner i with
  | case1 inner i hi ho ih =>
    rw [← instr?_of_lt hi, ← instr?_append_left hi] at ho
    rw [scanForward_loopStart ho]
    exact ih h
  | case2 i hi hc =>
    rw [← instr?_of_lt hi, ← instr?_append_left hi] at hc
    rw [scanForward_loopEnd hc]
    exact h
  | case3 i hi hc inner ih =>
    rw [← instr?_of_lt hi, ← instr?_append_left hi] at hc
    rw [scanForward_loopEnd hc, if_neg (Nat.succ_ne_zero inner), Nat.succ_sub_one]
    exact ih h
  | case4 inner i hi ho hc ih =>
    rw [← instr?_of_lt hi, ← instr?_append_left hi] at ho hc
    rw [scanForward_plain (lt_size_append_left hi) ho hc]
    exact ih h
  | case5 inner i hi => cases h

/-- A search that begins behind `p` is one of `q`. -/
lemma scanForward_append_right (p q : Program) (inner i : Nat) :
    (p ++ q).scanForward inner (p.size + i) = (q.scanForward inner i).map (p.size + ·) := by
  fun_induction q.scanForward inner i with
  | case1 inner i hi ho ih =>
    rw [← instr?_of_lt hi, ← instr?_append_right p] at ho
    rw [scanForward_loopStart ho, ← ih]
    rfl
  | case2 i hi hc =>
    rw [← instr?_of_lt hi, ← instr?_append_right p] at hc
    rw [scanForward_loopEnd hc]
    rfl
  | case3 i hi hc inner ih =>
    rw [← instr?_of_lt hi, ← instr?_append_right p] at hc
    rw [scanForward_loopEnd hc, if_neg (Nat.succ_ne_zero inner), Nat.succ_sub_one, ← ih]
    rfl
  | case4 inner i hi ho hc ih =>
    have hlt : p.size + i < (p ++ q).size := by
      rw [size_append]
      exact Nat.add_lt_add_left hi _
    rw [← instr?_of_lt hi, ← instr?_append_right p] at ho hc
    rw [scanForward_plain hlt ho hc, ← ih]
    rfl
  | case5 inner i hi =>
    rw [scanForward_of_size_le]
    · rfl
    · rw [size_append]
      exact Nat.add_le_add_left (Nat.le_of_not_lt hi) _

end Program

/-! ### The run of the first program -/

/-- A failure for which the text behind the instruction does not matter. -/
def Failure.isLocal : Failure → Bool
  | .outOfBounds _ _ _ => true
  | .unmatched _ .closing => true
  | .stackOverflow _ _ => true
  | .io _ _ => true
  | .unmatched _ .opening => false
  | .unterminated _ => false

/-- The machine with another program. -/
def Machine.within (p' : Program) (m : Machine) : Machine := { m with program := p' }

namespace Machine

variable {p q : Program} {l : Limits} {m : Machine}

/-- A machine that goes on or fails where it stands is not at the end of its program. -/
lemma ip_lt_of_isLocal
    (hok : ∀ o, m.next.outcome? = some o → ∃ f, o = .failed f ∧ f.isLocal) :
    m.ip < m.program.size := by
  by_contra hge
  rw [next_of_size_le (Nat.le_of_not_lt hge)] at hok
  split_ifs at hok
  · obtain ⟨f, hf, -⟩ := hok _ rfl
    cases hf
  · obtain ⟨f, hf, hlocal⟩ := hok _ rfl
    cases hf
    cases hlocal

/-- **What is done next** does not depend on what is put behind, unless it does so on the end of
the program. -/
theorem next_append (hp : m.program = p)
    (hok : ∀ o, m.next.outcome? = some o → ∃ f, o = .failed f ∧ f.isLocal) :
    (m.within (p ++ q)).next = m.next := by
  subst hp
  have hip := ip_lt_of_isLocal hok
  have hinstr : (m.program ++ q).instr? m.ip = m.program.instr? m.ip :=
    Program.instr?_append_left hip
  have hnot {a : Action} {o : Outcome} (hn : m.next = a) (ho : a.outcome? = some o)
      (h : ∀ f, o = .failed f → ¬ f.isLocal) : False := by
    subst hn
    obtain ⟨f, hf, hlocal⟩ := hok o ho
    exact h f hf hlocal
  have hch := m.chooses_next
  generalize hn : m.next = a at hch
  refine Chooses.next_eq ?_ ?_
  · cases hch with
    | halt hi | unterminated hi => exact absurd hip (Nat.not_lt.mpr hi)
    | pass hi hb => exact .pass (Program.lt_size_append_left hi) (hinstr.trans hb)
    | right hb h => exact .right (hinstr.trans hb) h
    | high hb h => exact .high (hinstr.trans hb) h
    | left hb h => exact .left (hinstr.trans hb) h
    | low hb h => exact .low (hinstr.trans hb) h
    | increment hb hc => exact .increment (hinstr.trans hb) hc
    | decrement hb hc => exact .decrement (hinstr.trans hb) hc
    | emit hb hc => exact .emit (hinstr.trans hb) hc
    | accept hb => exact .accept (hinstr.trans hb)
    | enter hb hc h0 hd => exact .enter (hinstr.trans hb) hc h0 hd
    | overflow hb hc h0 hd => exact .overflow (hinstr.trans hb) hc h0 hd
    | skip hb hc hj => exact .skip (hinstr.trans hb) hc (Program.scanForward_append_left hj)
    | opening => exact (hnot hn rfl (by rintro f ⟨⟩ ⟨⟩)).elim
    | again hb ht hc h0 => exact .again (hinstr.trans hb) ht hc h0
    | leave hb ht hc => exact .leave (hinstr.trans hb) ht hc
    | closing hb ht => exact .closing (hinstr.trans hb) ht
    | crash hb hc => exact .crash (fun h => hb (hinstr.symm.trans h)) hc
  · rintro rfl
    exact hnot hn rfl (by rintro f ⟨⟩)

end Machine

/-- A run of `p` is one of `p ++ q` as long as the end of `p` does not matter. -/
lemma carries_within {p : Program} {l : Limits} (hl : 1 ≤ l.tapeSize) (q : Program) :
    Carries (Machine.Sound p l) (fun o => ∃ f, o = .failed f ∧ f.isLocal)
      (Machine.within (p ++ q)) id where
  moves _ _ hm h := h.sound hm
  pointer_lt _ hm := hm.pointer_lt hl
  cell _ _ := rfl
  pointer _ := rfl
  ip _ := rfl
  instr m hm hok := by
    show (p ++ q).instr? m.ip = m.program.instr? m.ip
    rw [← hm.program]
    exact Program.instr?_append_left (Machine.ip_lt_of_isLocal hok)
  next m hm hok := by
    rw [Action.relocate_id]
    exact Machine.next_append hm.program hok
  perform m _ _ := by
    rw [Action.relocate_id]
    cases m.next <;> rfl
  store _ _ _ := rfl

/-- A run of `q` is one of `p ++ q` that has begun behind `p`. -/
lemma carries_behind (p q : Program) :
    Carries (fun m => m.program = q ∧ m.tape.pointer < m.tape.length) (fun _ => True)
      (Machine.relocate (p.size + ·) (p ++ q)) (p.size + ·) where
  moves _ _ hm h := ⟨h.program_eq.trans hm.1, h.pointer_lt hm.2⟩
  pointer_lt _ hm := hm.2
  cell _ _ := rfl
  pointer _ := rfl
  ip _ := rfl
  instr m hm _ := by
    obtain ⟨rfl, -⟩ := hm
    exact Program.instr?_append_right p m.program m.ip
  next m hm _ := by
    obtain ⟨rfl, -⟩ := hm
    refine Machine.next_relocate ?_ ?_ fun _ => ?_
    · rw [Program.size_append]
      exact Nat.add_le_add_iff_left
    · exact Program.instr?_append_right p m.program m.ip
    · exact Program.scanForward_append_right p m.program 0 (m.ip + 1)
  perform m _ _ := by
    rw [Machine.perform_relocate]
    rfl
  store _ _ _ := rfl

/-! ### Runs of the whole -/

/-- An event of a run, told `k` instructions later of a program that begins at `i`. -/
def Event.behind (i k : Nat) : Event → Event
  | .executed step ip pointer cell instr => .executed (step + k) (i + ip) pointer cell instr
  | .finished steps => .finished (steps + k)
  | e => e

/-- A machine that comes to the end has no loop open there, and makes no call. -/
lemma Machine.Sound.of_step_done {p : Program} {l : Limits} {m : Machine} {c c' : Console}
    (h : m.Sound p l) (hs : m.step c = .stops .done c') :
    c' = c ∧ m.ip = p.size ∧ m.loops = .withCapacity l.stackDepth := by
  have hc := m.chooses_next
  rw [Machine.step] at hs
  cases hn : m.next with
  | halt =>
    rw [hn] at hs hc
    cases hs
    cases hc with
    | halt hi he =>
      rw [h.program] at hi
      refine ⟨rfl, le_antisymm h.ip_le hi, ?_⟩
      have hcapacity := h.capacity
      obtain ⟨program, tape, ⟨entries, capacity⟩, ip⟩ := m
      have hentries : entries = #[] := by simpa [LoopStack.isEmpty] using he
      rw [← hcapacity, hentries]
      rfl
  | emit b =>
    simp only [hn] at hs
    split at hs <;> cases hs
  | accept =>
    simp only [hn] at hs
    split at hs <;> cases hs
  | _ =>
    rw [hn] at hs
    cases hs

namespace Run

/-- The run `r` as part of a run `s` of a longer program, which has come to where the program of `r`
begins: positions and the count of instructions go on from there, and so does the log. -/
def behind (s r : Run) : Run :=
  ⟨r.machine.relocate (s.machine.ip + ·) s.machine.program, r.console, r.traced,
    r.steps + s.steps, s.log ++ (r.log.extract 1).map (Event.behind s.machine.ip s.steps)⟩

variable {p q : Program} {l : Limits} {s : Run} {t : Tape} {depth n : Nat}

/-- What is told after the first event is told after any other beginning. -/
lemma append_extract_push (start : Array Event) {log : Array Event} (h : 0 < log.size)
    (e : Event) : start ++ (log.push e).extract 1 = (start ++ log.extract 1).push e := by
  have hle : 1 ≤ log.size := h
  rw [Array.extract_push, if_neg (by rw [Array.size_push]; omega), if_pos hle, Array.append_push]

/-- What is done in `p` is done in `p ++ q`; only the length of the program is told otherwise. -/
lemma iterate_append_left (hl : 1 ≤ l.tapeSize) (p q : Program) (c : Call)
    (hok : ∀ r o, (c.start (.new p l)).iterate n = .ended r o → ∃ f, o = .failed f ∧ f.isLocal) :
    ∃ tell, (c.start (.new (p ++ q) l)).iterate n = ((c.start (.new p l)).iterate n).map
      (carry (Machine.within (p ++ q)) 0 tell) id := by
  let tell (log : Array Event) : Array Event :=
    #[.started (p ++ q).size (Machine.new p l).tape.length] ++ log.extract 1
  have hshift : Event.Shifts id 0 id := ⟨fun _ _ _ _ _ => rfl, fun _ => rfl⟩
  have hid : Outcome.relocate id = id := funext Outcome.relocate_id
  refine ⟨tell, ?_⟩
  rw [← hid]
  exact (carries_within hl q).iterate hshift tell (fun log e h => append_extract_push _ h e)
    (Machine.sound_new p l) (r := c.start (.new p l)) Nat.one_pos hok

/-- What is done behind `p`, with no loop open, is done in `q`. -/
lemma iterate_append_right
    (hs : s.machine = ⟨p ++ q, t, .withCapacity depth, p.size⟩) (ht : t.pointer < t.length) :
    s.iterate n = ((Call.start ⟨s.console, s.traced⟩ ⟨q, t, .withCapacity depth, 0⟩).iterate n).map
      (behind s) (Outcome.relocate (p.size + ·)) := by
  let tell (log : Array Event) : Array Event :=
    s.log ++ (log.extract 1).map (Event.behind p.size s.steps)
  have hshift : Event.Shifts (p.size + ·) s.steps (Event.behind p.size s.steps) :=
    ⟨fun _ _ _ _ _ => rfl, fun _ => rfl⟩
  have htell (log : Array Event) (e : Event) (h : 0 < log.size) :
      tell (log.push e) = (tell log).push (Event.behind p.size s.steps e) := by
    have hlog := append_extract_push #[] h e
    rw [Array.empty_append, Array.empty_append] at hlog
    simp only [tell, hlog, Array.map_push, Array.append_push]
  have hbehind : behind s = carry (Machine.relocate (p.size + ·) (p ++ q)) s.steps tell := by
    funext r
    rw [behind, hs]
    rfl
  have hstart : behind s (Call.start ⟨s.console, s.traced⟩ ⟨q, t, .withCapacity depth, 0⟩) = s := by
    obtain ⟨m, c, traced, steps, log⟩ := s
    obtain rfl := hs
    simp [behind, Call.start, start, Machine.relocate, LoopStack.relocate, LoopStack.withCapacity]
  have h := (carries_behind p q).iterate (n := n) hshift tell htell
    (r := Call.start ⟨s.console, s.traced⟩ ⟨q, t, .withCapacity depth, 0⟩) ⟨rfl, ht⟩ Nat.one_pos
    fun _ _ _ => trivial
  rw [← hbehind, hstart] at h
  exact h

/-- **One program behind another.** If a run of `p` comes to the end of `p`, the run of `p ++ q`
comes there too, with the same tape and channels and no loop open, and from there on it is the run of
`q` on that tape and those channels, every position `p.size` further on. If the run of `p` fails
where the text behind does not matter, the run of `p ++ q` fails in the same way and leaves the same
state. -/
theorem iterate_append (p q : Program) (hl : 1 ≤ l.tapeSize) (c : Call) {r : Run} :
    ((c.start (.new p l)).Ends r .done → ∃ n s,
      (c.start (.new (p ++ q) l)).iterate n = .running s ∧
      s.machine = ⟨p ++ q, r.machine.tape, .withCapacity l.stackDepth, p.size⟩ ∧
      s.console = r.console ∧ s.traced = c.traced ∧ s.steps = r.steps ∧
      ∀ k, s.iterate k = ((Call.start ⟨r.console, c.traced⟩
        ⟨q, r.machine.tape, .withCapacity l.stackDepth, 0⟩).iterate k).map
          (behind s) (Outcome.relocate (p.size + ·))) ∧
    (∀ f, (c.start (.new p l)).Ends r (.failed f) → f.isLocal → ∃ r',
      (c.start (.new (p ++ q) l)).Ends r' (.failed f) ∧
      r'.machine = { r.machine with program := p ++ q } ∧ r'.console = r.console) := by
  constructor
  · intro he
    obtain ⟨n, r₀, hn, hlast⟩ := ends_iff_exists_last.mp he
    obtain ⟨tell, hmap⟩ := iterate_append_left hl p q c fun r' o hn' => by
      rw [hn] at hn'
      cases hn'
    rw [hn] at hmap
    have hr₀ : r₀.machine.Sound p l := by
      have hsound := (Reachable.run c n (.new (p := p) (l := l))).sound
      rwa [hn] at hsound
    obtain ⟨c', hstep, rfl⟩ := step_of_advance_ended (hr₀.pointer_lt hl) hlast
    obtain ⟨hconsole, hip, hloops⟩ := hr₀.of_step_done hstep
    subst hconsole
    have hmachine : (r₀.carry (Machine.within (p ++ q)) 0 tell).machine =
        ⟨p ++ q, r₀.machine.tape, .withCapacity l.stackDepth, p.size⟩ := by
      rw [← hip, ← hloops]
      rfl
    have htraced : r₀.traced = c.traced := traced_of_iterate hn
    refine ⟨n, _, hmap, hmachine, rfl, htraced, rfl, fun k => ?_⟩
    rw [← htraced]
    exact iterate_append_right hmachine (hr₀.pointer_lt hl)
  · rintro f ⟨n, hn⟩ hf
    obtain ⟨tell, hmap⟩ := iterate_append_left hl p q c fun r' o hn' => by
      rw [hn] at hn'
      cases hn'
      exact ⟨f, rfl, hf⟩
    rw [hn] at hmap
    exact ⟨_, ⟨n, hmap⟩, rfl, rfl⟩

/-- `+[-]` comes to its end; behind it `+]` fails at its `]`, which is at position 5 of the whole. -/
theorem iterate_append_closing :
    let p : Program := .ofList [0x2b, 0x5b, 0x2d, 0x5d]
    let q : Program := .ofList [0x2b, 0x5d]
    let c : Call := ⟨.ofScripts [] [] [], true⟩
    ∃ r s, (c.start (.new p ⟨4, 10⟩)).Ends r .done ∧
      (c.start (.new (p ++ q) ⟨4, 10⟩)).Ends s (.failed (.unmatched 5 .closing)) := by
  intro p q c
  have hsecond : (match (c.start (.new p ⟨4, 10⟩)).iterate 5 with
      | .ended r .done => ((Call.start ⟨r.console, c.traced⟩
          ⟨q, r.machine.tape, .withCapacity 10, 0⟩).iterate 2).outcome?
      | _ => none) = some (.failed (.unmatched 1 .closing)) := by decide +kernel
  split at hsecond
  · rename_i r hr
    have hl : 1 ≤ (⟨4, 10⟩ : Limits).tapeSize := by decide
    obtain ⟨n, s, hn, -, -, -, -, hs⟩ := (iterate_append p q hl c).1 ⟨5, hr⟩
    have hs := hs 2
    generalize (Call.start ⟨r.console, c.traced⟩ _).iterate 2 = progress at hs hsecond
    cases progress with
    | running r₂ => cases hsecond
    | ended r₂ o₂ =>
      cases hsecond
      exact ⟨r, _, ⟨5, hr⟩, (ends_of_iterate hn).mpr ⟨2, hs⟩⟩
  · cases hsecond

end Run

end Brainfuck
