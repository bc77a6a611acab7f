import Brainfuck.Proofs.Run.Append
import Brainfuck.Proofs.Run.Comments
import Brainfuck.Proofs.Semantics.Code

/-!
Loops that are never entered. At the beginning of a program, and directly behind another loop, the
current cell is zero, comments in between or not: a run comes to the place behind a `]` by leaving the
loop or by passing over it, both on a zero, and no jump leads there from elsewhere
(`Machine.Moves.zeroBehind`). So a loop that stands there is passed over each time, and the program
without it does the same (`Session.dead_loop`).

The run of the program without the loop is the one whose invariants are known. The other machine is
where it is, with the loop made room for (`makeRoom`), or still has the loop to pass over
(`Machine.Around`). A search crosses the loop unhindered, as its text is balanced
(`Program.scanForward_makeRoom_left`).
-/

namespace Brainfuck

/-- The text of a loop with the body `b`. -/
def loopText (b : List UInt8) : List UInt8 :=
  Instr.loopStart.toByte :: (b ++ [Instr.loopEnd.toByte])

/-- Where the position `i` is when `n` bytes are put in at `k`. -/
def makeRoom (k n i : Nat) : Nat := if i < k then i else i + n

/-- A place at the beginning of the text or directly behind a `]`, comments apart. -/
inductive Program.BehindLoop (p : Program) : Nat → Prop
  | start : BehindLoop p 0
  | loopEnd {i : Nat} : p.instr? i = some .loopEnd → BehindLoop p (i + 1)
  | comment {i : Nat} : p.instr? i = none → BehindLoop p i → BehindLoop p (i + 1)

/-- At such a place the current cell is zero. -/
def Machine.ZeroBehind (m : Machine) : Prop := m.program.BehindLoop m.ip → m.tape.get? = some 0

/-- The first run has left what the second one has left, at the positions of `p` that `f` says. -/
structure LeftAt (f : Nat → Nat) (p : Program) (e e' : Run × Outcome) : Prop where
  machine : e.1.machine = e'.1.machine.relocate f p
  console : e.1.console = e'.1.console
  outcome : e.2 = e'.2.relocate f

variable {p : Program} {l : Limits} {m m' n : Machine} {a b c : List UInt8} {i k inner : Nat}

/-! ### The cell behind a loop -/

lemma Machine.zeroBehind_new (hl : 1 ≤ l.tapeSize) : (new p l).ZeroBehind := by
  intro _
  show (Tape.blank l.tapeSize).get? = some 0
  rw [Tape.get?_eq, Tape.toList_blank]
  exact List.getElem?_replicate_of_lt hl

/-- A `]` is come to on a zero, by leaving its loop or by passing over it, unless it goes back. -/
lemma Machine.Sound.get?_of_loopEnd (h : m.Sound p l) (hg : m.next.goesOn)
    (hend : p.instr? (m.perform m.next).ip = some .loopEnd) :
    (m.perform m.next).tape.get? = some 0 := by
  have hc := m.chooses_next
  generalize m.next = a at hc hg hend
  rw [← h.program] at hend
  cases hc with
  | halt | unterminated | high | low | overflow | opening | closing | crash =>
    simp [Action.goesOn] at hg
  | pass _ hb | right hb | left hb | increment hb | decrement hb | emit hb | accept hb | enter hb =>
    have hend : m.program.instr? m.ip = some .loopEnd := hend
    rw [hb] at hend
    cases hend
  | skip _ hcell => exact hcell
  | leave _ _ hcell => exact hcell
  | @again i _ hb ht =>
    -- it goes back to a `[`
    have hend : m.program.instr? i = some .loopEnd := hend
    rw [h.program, h.instr?_top ht] at hend
    cases hend

/-- **Every move keeps the cell behind a loop zero.** -/
theorem Machine.Moves.zeroBehind (h : m.Moves m') (hm : m.Sound p l) (hz : m.ZeroBehind) :
    m'.ZeroBehind := by
  have hp := h.program_eq
  intro hb
  rw [hp] at hb
  cases h with
  | @act a hn hg =>
    subst hn
    have hb : m.program.BehindLoop ((m.perform m.next).ip + 1) := hb
    show (m.perform m.next).tape.get? = some 0
    cases hb with
    | loopEnd hend =>
      rw [hm.program] at hend
      exact hm.get?_of_loopEnd hg hend
    | comment hc hb =>
      -- only from a comment does a machine come to a comment
      rw [hm.program] at hc
      have hpass : m.next = .pass := by
        by_contra hne
        exact hm.instr?_perform hg hne hc
      rw [hpass] at hb ⊢
      exact hz hb
  | store x hn _ =>
    have hinput := instr?_of_next_accept hn
    have hb : m.program.BehindLoop (m.ip + 1) := hb
    cases hb with
    | loopEnd hend =>
      rw [hinput] at hend
      cases hend
    | comment hc =>
      rw [hinput] at hc
      cases hc

/-- Comments lead from one such place to another. -/
lemma Program.BehindLoop.of_comments (h : p.BehindLoop i) (hik : i ≤ k)
    (hc : ∀ j, i ≤ j → j < k → p.instr? j = none) : p.BehindLoop k := by
  induction k, hik using Nat.le_induction with
  | base => exact h
  | succ k hik ih =>
    refine .comment (hc k hik (Nat.lt_succ_self k)) (ih fun j hij hjk => ?_)
    exact hc j hij (Nat.lt_succ_of_lt hjk)

/-! ### A loop put in -/

lemma Balanced.loopText (h : Balanced b) : Balanced (loopText b) := by
  obtain ⟨body, hbody⟩ := Code.balanced_iff.mp h
  rw [← Code.ofText?_eq_some_iff.mp hbody]
  exact Code.balanced_text (.loop body .done)

lemma length_loopText (b : List UInt8) : (loopText b).length = b.length + 2 := by
  simp [loopText]

lemma makeRoom_of_lt (h : i < k) (n : Nat) : makeRoom k n i = i := if_pos h

lemma makeRoom_of_le (h : k ≤ i) (n : Nat) : makeRoom k n i = i + n := if_neg (Nat.not_lt.mpr h)

lemma makeRoom_add (k n i : Nat) : makeRoom k n (k + i) = k + n + i := by
  rw [makeRoom_of_le (Nat.le_add_right k i)]
  omega

namespace Program

section Insert

variable (head loop q : Program)

lemma size_le_makeRoom_iff (i : Nat) :
    (head ++ loop ++ q).size ≤ makeRoom head.size loop.size i ↔ (head ++ q).size ≤ i := by
  simp only [size_append, makeRoom]
  split_ifs <;> omega

/-- Every instruction that is not put in has made room. -/
lemma instr?_makeRoom (i : Nat) :
    (head ++ loop ++ q).instr? (makeRoom head.size loop.size i) = (head ++ q).instr? i := by
  by_cases hi : i < head.size
  · have hi' : i < (head ++ loop).size := by
      rw [size_append]
      omega
    rw [makeRoom_of_lt hi, instr?_append_left hi', instr?_append_left hi, instr?_append_left hi]
  · obtain ⟨j, rfl⟩ := Nat.exists_eq_add_of_le (Nat.le_of_not_lt hi)
    rw [makeRoom_add, ← size_append, instr?_append_right, instr?_append_right]

/-- Behind the loop the search is what it is without it. -/
lemma scanForward_makeRoom_right (inner j : Nat) :
    (head ++ loop ++ q).scanForward inner (head.size + loop.size + j) =
      ((head ++ q).scanForward inner (head.size + j)).map (makeRoom head.size loop.size) := by
  rw [← size_append, scanForward_append_right, scanForward_append_right, Option.map_map]
  congr 1
  funext i
  rw [Function.comp_apply, makeRoom_add, size_append]

variable {head loop}

/-- **Before the loop** the search crosses it. -/
theorem scanForward_makeRoom_left (hb : Balanced loop.toList) (hi : i ≤ head.size) (inner : Nat) :
    (head ++ loop ++ q).scanForward inner i =
      ((head ++ q).scanForward inner i).map (makeRoom head.size loop.size) := by
  obtain ⟨d, hd⟩ := Nat.exists_eq_add_of_le hi
  induction d generalizing i inner with
  | zero =>
    obtain rfl : head.size = i := hd
    have hright := scanForward_makeRoom_right head loop q inner 0
    rw [add_zero, add_zero] at hright
    rw [← hright]
    refine scanForward_of_balanced (Nat.le_add_right _ _) ?_
    rw [toList_append, toList_append, List.extract_eq_take_drop, List.append_assoc, size_eq,
      List.drop_left, Nat.add_sub_cancel_left, size_eq, List.take_left]
    exact hb
  | succ d ih =>
    have hlt : i < head.size := by omega
    have hlong : i < (head ++ loop ++ q).size := by
      simp only [size_append]
      omega
    have hshort : i < (head ++ q).size := lt_size_append_left hlt
    have hinstr := instr?_makeRoom head loop q i
    rw [makeRoom_of_lt hlt] at hinstr
    have ih (inner : Nat) := ih hlt inner (by omega)
    rcases weight_cases ((head ++ q).instr? i) with ⟨ho, -⟩ | ⟨hc, -⟩ | ⟨⟨ho, hc⟩, -⟩
    · rw [scanForward_loopStart (hinstr.trans ho), scanForward_loopStart ho, ih]
    · rw [scanForward_loopEnd (hinstr.trans hc), scanForward_loopEnd hc]
      split_ifs
      · rw [Option.map_some, makeRoom_of_lt hlt]
      · exact ih _
    · rw [scanForward_plain hlong (hinstr ▸ ho) (hinstr ▸ hc), scanForward_plain hshort ho hc, ih]

lemma loopEnd?_makeRoom (hb : Balanced loop.toList) (i : Nat) :
    (head ++ loop ++ q).loopEnd? (makeRoom head.size loop.size i) =
      ((head ++ q).loopEnd? i).map (makeRoom head.size loop.size) := by
  unfold loopEnd?
  by_cases hi : i < head.size
  · rw [makeRoom_of_lt hi]
    exact scanForward_makeRoom_left q hb hi 0
  · obtain ⟨j, rfl⟩ := Nat.exists_eq_add_of_le (Nat.le_of_not_lt hi)
    rw [makeRoom_add]
    exact scanForward_makeRoom_right head loop q 0 (j + 1)

end Insert

/-- A loop of balanced text ends with its last byte, whatever stands around it. -/
lemma loopEnd?_loopText (head q : Program) (hb : Balanced b) :
    (head ++ ofList (loopText b) ++ q).instr? head.size = some .loopStart ∧
      (head ++ ofList (loopText b) ++ q).loopEnd? head.size = some (head.size + b.length + 1) := by
  have htext : (head ++ ofList (loopText b) ++ q).toList =
      head.toList ++ Instr.loopStart.toByte :: (b ++ Instr.loopEnd.toByte :: q.toList) := by
    simp [toList_append, toList_ofList, loopText]
  rw [loopEnd?_eq_some_iff, instr?_eq, htext, size_eq]
  refine ⟨?_, by omega, ?_, ?_⟩
  · simp [instrAt]
  · rw [instrAt, Nat.add_assoc, List.getElem?_append_right (Nat.le_add_right _ _)]
    simp
  · have hlen : head.toList.length + b.length + 1 - (head.toList.length + 1) = b.length := by omega
    rw [List.extract_eq_take_drop, hlen, ← List.drop_drop, List.drop_left, List.drop_one,
      List.tail_cons, List.take_left]
    exact hb

/-- What stands between `head` and `q` is a loop, and where it stands the cell is zero. -/
structure DeadLoop (head loop q : Program) : Prop where
  balanced : Balanced loop.toList
  start : (head ++ loop ++ q).instr? head.size = some .loopStart
  loopEnd : ∃ j, (head ++ loop ++ q).loopEnd? head.size = some j ∧ j + 1 = head.size + loop.size
  behind : (head ++ q).BehindLoop head.size

/-- A loop at the beginning of a text or behind a `]`, comments apart, is one. -/
lemma deadLoop_ofList (q : List UInt8) (ha : a = [] ∨ ∃ a', a = a' ++ [Instr.loopEnd.toByte])
    (hc : ∀ x ∈ c, Instr.ofByte? x = none) (hb : Balanced b) :
    DeadLoop (ofList (a ++ c)) (ofList (loopText b)) (ofList q) := by
  obtain ⟨hstart, hend⟩ := loopEnd?_loopText (ofList (a ++ c)) (ofList q) hb
  refine ⟨?_, hstart, ⟨_, hend, ?_⟩, ?_⟩
  · rw [toList_ofList]
    exact hb.loopText
  · rw [size_ofList (loopText b), length_loopText]
    omega
  · rw [size_ofList, ← ofList_append]
    refine BehindLoop.of_comments (i := a.length) ?_ (by simp) fun j hj hjk => ?_
    · rcases ha with rfl | ⟨a', rfl⟩
      · exact .start
      · rw [List.length_append, List.length_singleton]
        refine .loopEnd ?_
        rw [instr?_eq, instrAt, toList_ofList]
        simp
    · rw [instr?_eq, instrAt, toList_ofList, List.append_assoc, List.getElem?_append_right hj]
      rw [List.length_append] at hjk
      have hlt : j - a.length < c.length := by omega
      rw [List.getElem?_append_left hlt, List.getElem?_eq_getElem hlt]
      exact hc _ (List.getElem_mem hlt)

end Program

/-! ### The machine that goes around the loop -/

namespace Machine

/-- The machine that is where `n` is, with the loop put in. -/
def withLoop (head loop q : Program) (n : Machine) : Machine :=
  n.relocate (makeRoom head.size loop.size) (head ++ loop ++ q)

/-- The second machine is where `n` is, with the loop put in, or has yet to pass over the loop to come
there. -/
inductive Around (head loop q : Program) (n : Machine) : Machine → Prop
  | there : Around head loop q n (n.withLoop head loop q)
  | before : n.ip = head.size →
      Around head loop q n { n.withLoop head loop q with ip := head.size }

/-- The machine `m` runs the program with the loop as `n` runs the one without it. -/
structure GoesAround (head loop q : Program) (l : Limits) (m n : Machine) : Prop where
  sound : n.Sound (head ++ q) l
  zeroBehind : n.ZeroBehind
  around : n.Around head loop q m

variable {head loop q : Program}

/-- One position further on is the place before the loop or the place further on. -/
lemma around_forward (n : Machine) :
    n.forward.Around head loop q (n.withLoop head loop q).forward := by
  by_cases hk : n.ip + 1 = head.size
  · have hlt : n.ip < head.size := by omega
    have hbefore : (n.withLoop head loop q).forward =
        { n.forward.withLoop head loop q with ip := head.size } := by
      simp only [withLoop, forward, relocate, makeRoom_of_lt hlt, hk]
    rw [hbefore]
    exact .before hk
  · have hsucc : makeRoom head.size loop.size (n.ip + 1) =
        makeRoom head.size loop.size n.ip + 1 := by
      unfold makeRoom
      split_ifs <;> omega
    have hthere : (n.withLoop head loop q).forward = n.forward.withLoop head loop q :=
      forward_relocate hsucc
    rw [hthere]
    exact .there

/-- A new machine is at its first position, or has the loop to pass over first. -/
lemma around_new (head loop q : Program) (l : Limits) :
    (new (head ++ q) l).Around head loop q (.new (head ++ loop ++ q) l) := by
  by_cases hk : 0 < head.size
  · have hnew : (Machine.new (head ++ q) l).withLoop head loop q = .new (head ++ loop ++ q) l :=
      relocate_new (makeRoom_of_lt hk loop.size) (head ++ q) l
    rw [← hnew]
    exact .there
  · have hk : head.size = 0 := by omega
    have hnew : Machine.new (head ++ loop ++ q) l =
        { (Machine.new (head ++ q) l).withLoop head loop q with ip := head.size } := by
      simp [Machine.new, withLoop, relocate, LoopStack.relocate, LoopStack.withCapacity, hk]
    rw [hnew]
    exact .before hk.symm

/-- The program with the loop does the same where the loop is not next. -/
lemma Sound.next_withLoop (h : n.Sound (head ++ q) l) (hb : Balanced loop.toList) :
    (n.withLoop head loop q).next = n.next.relocate (makeRoom head.size loop.size) := by
  have hprogram := h.program
  refine next_relocate ?_ ?_ fun _ => ?_
  · rw [hprogram]
    exact Program.size_le_makeRoom_iff head loop q n.ip
  · rw [hprogram]
    exact Program.instr?_makeRoom head loop q n.ip
  · rw [hprogram]
    exact Program.loopEnd?_makeRoom q hb n.ip

/-- Where the loop is not next, one instruction leads to the place before it, or is done with it. -/
lemma Sound.step_withLoop (h : n.Sound (head ++ q) l) (hl : 1 ≤ l.tapeSize)
    (hb : Balanced loop.toList) (c : Console) :
    ((n.withLoop head loop q).step c).Matches
      (fun m' n' => n.Moves n' ∧ n'.Around head loop q m')
      (fun o o' => o = o'.relocate (makeRoom head.size loop.size)) (n.step c) := by
  have hmatch := step_matches (R := fun n' m' => n.Moves n' ∧ n'.Around head loop q m') rfl
    (h.next_withLoop hb) ?_ ?_ c
  · exact hmatch.swap (fun _ _ h => h) fun _ _ h => h
  · intro hg
    refine ⟨.act rfl hg, ?_⟩
    rw [withLoop, perform_relocate]
    exact around_forward _
  · intro haccept x
    have hcell := (Tape.isSome_get? _).mpr (h.pointer_lt hl)
    exact ⟨.store x haccept hcell, around_forward (n.store x)⟩

namespace GoesAround

lemma tape_eq (h : GoesAround head loop q l m n) : m.tape = n.tape := by
  cases h.around <;> rfl

lemma loops_eq (h : GoesAround head loop q l m n) :
    m.loops = n.loops.relocate (makeRoom head.size loop.size) := by
  cases h.around <;> rfl

lemma new (hl : 1 ≤ l.tapeSize) :
    GoesAround head loop q l (.new (head ++ loop ++ q) l) (.new (head ++ q) l) :=
  ⟨sound_new _ l, zeroBehind_new hl, around_new head loop q l⟩

/-- No place inside the loop is come to, and no `[` of it is on the stack. -/
lemma outside (h : GoesAround head loop q l m n) :
    (m.ip ≤ head.size ∨ head.size + loop.size ≤ m.ip) ∧
      ∀ i ∈ m.loops.toList, i < head.size ∨ head.size + loop.size ≤ i := by
  have hroom (i : Nat) : makeRoom head.size loop.size i < head.size ∨
      head.size + loop.size ≤ makeRoom head.size loop.size i := by
    unfold makeRoom
    split_ifs <;> omega
  constructor
  · cases h.around with
    | there => exact (hroom n.ip).imp_left Nat.le_of_lt
    | before => exact Or.inl le_rfl
  · intro i hi
    rw [h.loops_eq, LoopStack.toList_relocate] at hi
    obtain ⟨j, -, rfl⟩ := List.mem_map.mp hi
    exact hroom j

/-- **One instruction of the program with the loop** is the one of the program without it, or passes
over the loop. -/
theorem step (hd : Program.DeadLoop head loop q) (hl : 1 ≤ l.tapeSize)
    (h : GoesAround head loop q l m n) (c : Console) :
    (m.step c).Matches (GoesAround head loop q l)
      (fun o o' => m = n.withLoop head loop q ∧ o = o'.relocate (makeRoom head.size loop.size))
      (n.step c) ∨
    ∃ m', m.step c = .goes m' c ∧ GoesAround head loop q l m' n ∧
      head.size + 1 - m'.ip < head.size + 1 - m.ip := by
  obtain ⟨hn, hz, ha⟩ := h
  cases ha with
  | there =>
    left
    refine (hn.step_withLoop hl hd.balanced c).imp ?_ fun _ _ ho => ⟨rfl, ho⟩
    rintro m' n' ⟨hmoves, ha⟩
    exact ⟨hmoves.sound hn, hmoves.zeroBehind hn hz, ha⟩
  | before hip =>
    right
    obtain ⟨j, hend, hj⟩ := hd.loopEnd
    have hzero : n.tape.get? = some 0 := by
      refine hz ?_
      rw [hn.program, hip]
      exact hd.behind
    have hnext : Machine.next { n.withLoop head loop q with ip := head.size } = .skip j :=
      Chooses.next_eq (.skip hd.start hzero hend) (by simp)
    have hthere : (perform { n.withLoop head loop q with ip := head.size } (.skip j)).forward =
        n.withLoop head loop q := by
      simp only [withLoop, relocate, perform, forward, hj, hip, makeRoom_of_le le_rfl]
    refine ⟨n.withLoop head loop q, ?_, ⟨hn, hz, .there⟩, ?_⟩
    · rw [Machine.step, hnext]
      exact congrArg (Step.goes · c) hthere
    · have hip' : (n.withLoop head loop q).ip = j + 1 := by rw [← hthere]; rfl
      have hlt : head.size < j := (Program.loopEnd?_eq_some_iff.mp hend).1
      rw [hip']
      show head.size + 1 - (j + 1) < head.size + 1 - head.size
      omega

/-- Every machine that comes up with the loop goes around it. -/
theorem of_reachable (hd : Program.DeadLoop head loop q) (hl : 1 ≤ l.tapeSize)
    (h : Reachable (head ++ loop ++ q) l m) : ∃ n, GoesAround head loop q l m n := by
  refine h.of_moves (P := fun m => ∃ n, GoesAround head loop q l m n) ⟨_, .new hl⟩ ?_ ?_
  · rintro m ⟨n, hn⟩
    exact hn.tape_eq ▸ hn.sound.inRange
  · rintro m m' ⟨n, hn⟩ hmoves
    obtain ⟨c, c', hc⟩ := hmoves.exists_step
    rcases hn.step hd hl c with hmatch | ⟨m₁, hm₁, hn₁, -⟩
    · rw [hc] at hmatch
      generalize n.step c = y at hmatch
      cases hmatch with
      | goes hn' => exact ⟨_, hn'⟩
    · rw [hc] at hm₁
      cases hm₁
      exact ⟨n, hn₁⟩

end GoesAround

end Machine

/-! ### Sessions -/

/-- **The sessions of two programs**, the one with the positions of the other moved by `f`. Its machine
does with each instruction what the other one does, or something that the other one leaves out. -/
theorem Session.of_step {f : Nat → Nat} {Q : Machine → Machine → Prop} {μ : Machine → Nat}
    (hlt : ∀ m n, Q m n → m.tape.pointer < m.tape.length ∧ n.tape.pointer < n.tape.length)
    (hstep : ∀ m n, Q m n → ∀ c,
      (m.step c).Matches Q (fun o o' => m = n.relocate f p ∧ o = o'.relocate f) (n.step c) ∨
      ∃ m', m.step c = .goes m' c ∧ Q m' n ∧ μ m' < μ m)
    (hm : Q m n) (calls : List Call) :
    (∀ ends, Session m calls ends →
      ∃ ends', Session n calls ends' ∧ List.Forall₂ (LeftAt f p) ends ends') ∧
    (∀ ends', Session n calls ends' →
      ∃ ends, Session m calls ends ∧ List.Forall₂ (LeftAt f p) ends ends') := by
  obtain ⟨hlong, hshort⟩ := (accompanies_of_step
    (T := fun m n o o' => m = n.relocate f p ∧ o = o'.relocate f) hlt hstep).session (Q := Q)
    (fun _ _ h _ => ⟨h, rfl⟩) (fun _ _ h => h.1) hm calls
  constructor
  · intro ends hs
    obtain ⟨ends', hs', hall⟩ := hlong ends hs
    exact ⟨ends', hs', hall.imp fun _ _ ⟨_, hc, hm, ho⟩ => ⟨hm, hc.symm, ho⟩⟩
  · intro ends' hs'
    obtain ⟨ends, hs, hall⟩ := hshort ends' hs'
    exact ⟨ends, hs, hall.imp fun _ _ ⟨_, hc, hm, ho⟩ => ⟨hm, hc.symm, ho⟩⟩

/-- The sessions of a program with a dead loop and of the program without it. -/
theorem Session.withLoop {head loop q : Program} (hd : Program.DeadLoop head loop q)
    (hl : 1 ≤ l.tapeSize) (calls : List Call) :
    (∀ ends, Session (.new (head ++ loop ++ q) l) calls ends →
      ∃ ends', Session (.new (head ++ q) l) calls ends' ∧
        List.Forall₂ (LeftAt (makeRoom head.size loop.size) (head ++ loop ++ q)) ends ends') ∧
    (∀ ends', Session (.new (head ++ q) l) calls ends' →
      ∃ ends, Session (.new (head ++ loop ++ q) l) calls ends ∧
        List.Forall₂ (LeftAt (makeRoom head.size loop.size) (head ++ loop ++ q)) ends ends') := by
  refine Session.of_step (Q := Machine.GoesAround head loop q l)
    (μ := fun m => head.size + 1 - m.ip) ?_ (fun m n h c => h.step hd hl c) (.new hl) calls
  intro m n h
  exact ⟨h.tape_eq ▸ h.sound.pointer_lt hl, h.sound.pointer_lt hl⟩

/-- **Loops that are never entered.** A loop at the beginning of a program, or behind a `]` with only
comments in between, can be put in or left out, whatever stands around it, be it unbalanced. Both
programs have the same sessions, on any channels and within any limits that allow a cell: each run ends
iff the other does, with the same tape and channels, and with the same outcome, position and stack, the
positions behind the loop moved by its length. The loop is passed over each time: no place inside it is
come to, and it is never on the stack. -/
theorem Session.dead_loop {q : List UInt8} (hl : 1 ≤ l.tapeSize)
    (ha : a = [] ∨ ∃ a', a = a' ++ [Instr.loopEnd.toByte])
    (hc : ∀ x ∈ c, Instr.ofByte? x = none) (hb : Balanced b) (calls : List Call) :
    let long : Program := .ofList (a ++ c ++ loopText b ++ q)
    let short : Program := .ofList (a ++ c ++ q)
    let k := (a ++ c).length
    let f := makeRoom k (b.length + 2)
    (∀ ends, Session (.new long l) calls ends →
      ∃ ends', Session (.new short l) calls ends' ∧ List.Forall₂ (LeftAt f long) ends ends') ∧
    (∀ ends', Session (.new short l) calls ends' →
      ∃ ends, Session (.new long l) calls ends ∧ List.Forall₂ (LeftAt f long) ends ends') ∧
    ∀ m, Reachable long l m → (m.ip ≤ k ∨ k + (b.length + 2) ≤ m.ip) ∧
      ∀ i ∈ m.loops.toList, i < k ∨ k + (b.length + 2) ≤ i := by
  intro long short k f
  have hd := Program.deadLoop_ofList q ha hc hb
  have hsession := Session.withLoop hd hl calls
  have houtside (m : Machine) := fun h => Machine.GoesAround.of_reachable (m := m) hd hl h
  have hk : (Program.ofList (a ++ c)).size = k := Program.size_ofList _
  have hn : (Program.ofList (loopText b)).size = b.length + 2 :=
    (Program.size_ofList _).trans (length_loopText b)
  rw [hk, hn, ← Program.ofList_append, ← Program.ofList_append, ← Program.ofList_append] at hsession
  refine ⟨hsession.1, hsession.2, fun m hm => ?_⟩
  rw [← Program.ofList_append, ← Program.ofList_append] at houtside
  obtain ⟨n, hm'⟩ := houtside m hm
  rw [← hn, ← hk]
  exact hm'.outside

/-- In `+[-]x[[.]+]]` the second loop makes no difference; with it and without it the run fails at the
last `]`, which is at position 11 or 5. -/
theorem Session.dead_loop_unmatched :
    let long : Program :=
      .ofList [0x2b, 0x5b, 0x2d, 0x5d, 0x78, 0x5b, 0x5b, 0x2e, 0x5d, 0x2b, 0x5d, 0x5d]
    let short : Program := .ofList [0x2b, 0x5b, 0x2d, 0x5d, 0x78, 0x5d]
    let call : Call := ⟨.ofScripts [] [] [], true⟩
    Balanced [0x5b, 0x2e, 0x5d, 0x2b] ∧ Instr.ofByte? 0x78 = none ∧
    ∃ r r', Session (.new short ⟨4, 10⟩) [call] [(r', .failed (.unmatched 5 .closing))] ∧
      Session (.new long ⟨4, 10⟩) [call] [(r, .failed (.unmatched 11 .closing))] ∧
      r.console = r'.console ∧ r.machine.tape = r'.machine.tape := by
  intro long short call
  have hb : Balanced [0x5b, 0x2e, 0x5d, 0x2b] := by decide
  have hx : Instr.ofByte? 0x78 = none := rfl
  have ho : ((call.start (.new short ⟨4, 10⟩)).iterate 7).outcome? =
      some (.failed (.unmatched 5 .closing)) := by decide +kernel
  obtain ⟨r', hr'⟩ := Run.exists_ends_of_outcome? ho
  have hs : Session (.new short ⟨4, 10⟩) [call] [(r', .failed (.unmatched 5 .closing))] :=
    .cons hr' (.nil _)
  obtain ⟨-, hlong, -⟩ := Session.dead_loop (l := ⟨4, 10⟩) (a := [0x2b, 0x5b, 0x2d, 0x5d])
    (c := [0x78]) (b := [0x5b, 0x2e, 0x5d, 0x2b]) (q := [0x5d]) (by decide)
    (Or.inr ⟨[0x2b, 0x5b, 0x2d], rfl⟩) (by simp [hx]) hb [call]
  obtain ⟨ends, hs', hall⟩ := hlong _ hs
  cases hall with
  | @cons e _ _ _ he hall =>
    cases hall
    have hout : e.2 = .failed (.unmatched 11 .closing) := he.outcome
    have htape : e.1.machine.tape = r'.machine.tape := by rw [he.machine]; rfl
    obtain ⟨r, o⟩ := e
    subst hout
    exact ⟨hb, hx, r, r', hs, hs', he.console, htape⟩

end Brainfuck
