import Brainfuck.Proofs.Run.DeadLoops

/-!
Text that only counts. A cell counts modulo 256, so what a text of `+` and `-` does to it is decided by
its net count modulo 256 (`Tape.count_congr`), and one that is idle, with a net count of zero, leaves it
as it is. Idle text can be put in anywhere (`Session.withIdle`): a machine that comes to it is behind it
after as many instructions as it has bytes, with the tape as it was (`Machine.Crosses`), and a search
passes over it, as there are no brackets in it.

Two texts with the same net count can take each other's place (`Session.same_count`). Between the two
programs there is one that has both texts, with one in the middle that undoes the first: it is either
program with idle text put in, and where room has been made in two ways for one position
(`makeRoom_eq_makeRoom`), that position has been moved from the one program to the other.
-/

namespace Brainfuck

/-- How often a text counts up, less how often it counts down. -/
def net (u : List UInt8) : Int := u.count Instr.increment.toByte - u.count Instr.decrement.toByte

/-- There is nothing but `+` and `-` in a text. -/
def OnlyCounts (u : List UInt8) : Prop :=
  ∀ b ∈ u, b = Instr.increment.toByte ∨ b = Instr.decrement.toByte

/-- A text that only counts, and that comes to nothing modulo 256. -/
structure Idle (z : List UInt8) : Prop where
  counts : OnlyCounts z
  net : net z ≡ 0 [ZMOD 256]

/-- Two texts that only count, and as far modulo 256. -/
structure SameCount (u v : List UInt8) : Prop where
  left : OnlyCounts u
  right : OnlyCounts v
  net : net u ≡ net v [ZMOD 256]

/-- Where the position `i` is when the `n` bytes at `k` are replaced by `n'` bytes. -/
def moved (k n n' i : Nat) : Nat := if i < k then i else i + n' - n

/-- The position `i` is none of the `n` positions from `k` on. -/
def Outside (k n i : Nat) : Prop := i < k ∨ k + n ≤ i

/-- The second run has left what the first one has left, when the `n` bytes at `k` are replaced by `n'`
bytes, which makes `p'` of the program. The first one has left no position among these. -/
structure ReplacedAt (k n n' : Nat) (p' : Program) (e e' : Run × Outcome) : Prop where
  left : LeftAt (moved k n n') p' e' e
  ip : Outside k n e.1.machine.ip
  loops : ∀ i ∈ e.1.machine.loops.toList, Outside k n i
  failure : ∀ a i, e.2 = .failed a → a.position? = some i → Outside k n i

variable {l : Limits} {m n : Machine} {head q : Program} {x y u v z : List UInt8} {b : UInt8}

/-! ### Net counts -/

lemma net_append (u v : List UInt8) : net (u ++ v) = net u + net v := by
  simp only [net, List.count_append]
  omega

lemma onlyCounts_replicate (hb : b = Instr.increment.toByte ∨ b = Instr.decrement.toByte)
    (n : Nat) : OnlyCounts (List.replicate n b) := by
  intro b' hb'
  rwa [List.eq_of_mem_replicate hb']

lemma net_replicate_increment (n : Nat) : net (List.replicate n Instr.increment.toByte) = n := by
  simp [net, List.count_replicate, Instr.toByte]

lemma net_replicate_decrement (n : Nat) : net (List.replicate n Instr.decrement.toByte) = -n := by
  simp [net, List.count_replicate, Instr.toByte]

/-- There is a text for every net count. -/
lemma exists_net (k : Int) : ∃ w, OnlyCounts w ∧ net w = k := by
  obtain ⟨n, rfl | rfl⟩ := Int.eq_nat_or_neg k
  · exact ⟨_, onlyCounts_replicate (Or.inl rfl) n, net_replicate_increment n⟩
  · exact ⟨_, onlyCounts_replicate (Or.inr rfl) n, net_replicate_decrement n⟩

instance : DecidablePred OnlyCounts := List.decidableBAll _

lemma OnlyCounts.append (hu : OnlyCounts u) (hv : OnlyCounts v) : OnlyCounts (u ++ v) :=
  List.forall_mem_append.mpr ⟨hu, hv⟩

lemma OnlyCounts.height_eq (h : OnlyCounts u) : height u = 0 := by
  refine List.sum_eq_zero fun w hw => ?_
  obtain ⟨b, hb, rfl⟩ := List.mem_map.mp hw
  rcases h b hb with rfl | rfl <;> rfl

/-- There are no brackets in it. -/
lemma OnlyCounts.balanced (h : OnlyCounts u) : Balanced u where
  nonneg _ hp := (OnlyCounts.height_eq fun b hb => h b (hp.subset hb)).ge
  closed := h.height_eq

/-! ### Cells -/

namespace Tape

/-- The tape when a text that only counts has been at the current cell. -/
def count (t : Tape) (u : List UInt8) : Tape := t.modify (· + UInt8.ofInt (net u))

lemma modify_modify (t : Tape) (f g : UInt8 → UInt8) :
    (t.modify f).modify g = t.modify (g ∘ f) := by
  refine ext_toList ?_ ?_
  · rw [toList_modify, toList_modify, toList_modify, pointer_modify, List.modify_modify_eq]
  · rw [pointer_modify, pointer_modify, pointer_modify]

lemma modify_id (t : Tape) : t.modify id = t := by
  refine ext_toList ?_ (pointer_modify t id)
  rw [toList_modify, List.modify_id]

lemma count_append (t : Tape) (u v : List UInt8) : t.count (u ++ v) = (t.count u).count v := by
  rw [count, count, count, modify_modify, net_append, UInt8.ofInt_add]
  congr 1
  funext b
  rw [Function.comp_apply, UInt8.add_assoc]

/-- **A cell counts modulo 256.** -/
theorem count_congr (h : net u ≡ net v [ZMOD 256]) (t : Tape) : t.count u = t.count v := by
  have hmod : net u % 2 ^ 8 = net v % 2 ^ 8 := h
  have hcell : UInt8.ofInt (net u) = UInt8.ofInt (net v) := by rw [UInt8.ofInt, UInt8.ofInt, hmod]
  rw [count, count, hcell]

lemma count_nil (t : Tape) : t.count [] = t := by
  have hid : (fun b : UInt8 => b + UInt8.ofInt (net [])) = id := funext UInt8.add_zero
  rw [count, hid, modify_id]

lemma count_of_idle (h : Idle z) (t : Tape) : t.count z = t :=
  (count_congr (v := []) h.net t).trans t.count_nil

lemma count_increment (t : Tape) : t.count [Instr.increment.toByte] = t.increment := rfl

lemma count_decrement (t : Tape) : t.count [Instr.decrement.toByte] = t.decrement := by
  have hdown : UInt8.ofInt (net [Instr.decrement.toByte]) = -1 := by decide
  rw [count, hdown]
  exact congrArg t.modify (funext fun b => (UInt8.sub_eq_add_neg b 1).symm)

end Tape

/-! ### Text that is put in -/

namespace Program

lemma instr?_within (head q : Program) {k : Nat} (hk : k < z.length) :
    (head ++ ofList z ++ q).instr? (head.size + k) = Instr.ofByte? z[k] := by
  have hlt : head.size + k < (head ++ ofList z).size := by
    rw [size_append, size_ofList]
    omega
  rw [instr?_append_left hlt, instr?_append_right, instr?_eq, instrAt, toList_ofList,
    List.getElem?_eq_getElem hk]
  rfl

end Program

namespace Machine

/-- The second machine is where `n` is, with the text `z` put in, or has come to some place of it on the
way there. -/
inductive Crossing (head : Program) (z : List UInt8) (q : Program) (n : Machine) : Machine → Prop
  | there : Crossing head z q n (n.withLoop head (.ofList z) q)
  | within {k : Nat} : n.ip = head.size → k ≤ z.length → Crossing head z q n
      { n.withLoop head (.ofList z) q with tape := n.tape.count (z.take k), ip := head.size + k }

/-- The machine `m` runs the program with the text `z` as `n` runs the one without it. -/
structure Crosses (head : Program) (z : List UInt8) (q : Program) (l : Limits) (m n : Machine) :
    Prop where
  sound : n.Sound (head ++ q) l
  crossing : n.Crossing head z q m

/-- A machine that comes to `+` or `-` counts. -/
lemma step_of_counts (hb : b = Instr.increment.toByte ∨ b = Instr.decrement.toByte)
    (hi : m.program.instr? m.ip = Instr.ofByte? b) (hlt : m.tape.pointer < m.tape.length)
    (c : Console) : m.step c = .goes { m with tape := m.tape.count [b], ip := m.ip + 1 } c := by
  have hcell : m.tape.get?.isSome := (Tape.isSome_get? _).mpr hlt
  rcases hb with rfl | rfl
  · have hnext : m.next = .increment :=
      (next_of_instr (hi.trans (Instr.ofByte?_toByte _))).trans (if_pos hcell)
    rw [step, hnext, Tape.count_increment]
    rfl
  · have hnext : m.next = .decrement :=
      (next_of_instr (hi.trans (Instr.ofByte?_toByte _))).trans (if_pos hcell)
    rw [step, hnext, Tape.count_decrement]
    rfl

/-- The place before the text is its first place. -/
lemma Around.crossing (h : n.Around head (.ofList z) q m) : n.Crossing head z q m := by
  cases h with
  | there => exact .there
  | before hip =>
    have hwithin : n.Crossing head z q _ := .within hip (Nat.zero_le z.length)
    rw [List.take_zero, Tape.count_nil] at hwithin
    exact hwithin

namespace Crosses

lemma pointer_lt (hl : 1 ≤ l.tapeSize) (h : Crosses head z q l m n) :
    m.tape.pointer < m.tape.length := by
  have hlt := h.sound.pointer_lt hl
  cases h.crossing with
  | there => exact hlt
  | within => exact (Tape.pointer_modify _ _).symm ▸ (Tape.length_modify _ _).symm ▸ hlt

/-- **One instruction of the program with the text** is the one of the program without it, or is one of
the text. -/
theorem step (hz : Idle z) (hl : 1 ≤ l.tapeSize) (h : Crosses head z q l m n) (c : Console) :
    (m.step c).Matches (Crosses head z q l)
      (fun o o' => m = n.withLoop head (.ofList z) q ∧ o = o'.relocate (makeRoom head.size z.length))
      (n.step c) ∨
    ∃ m', m.step c = .goes m' c ∧ Crosses head z q l m' n ∧
      head.size + z.length - m'.ip < head.size + z.length - m.ip := by
  have hlt := h.pointer_lt hl
  obtain ⟨hn, hcrossing⟩ := h
  have hthere : ((n.withLoop head (.ofList z) q).step c).Matches (Crosses head z q l)
      (fun o o' => o = o'.relocate (makeRoom head.size z.length)) (n.step c) := by
    have hb : Balanced (Program.ofList z).toList := hz.counts.balanced
    refine (hn.step_withLoop hl hb c).imp ?_ fun _ _ ho => ho
    rintro m' n' ⟨hmoves, ha⟩
    exact ⟨hmoves.sound hn, ha.crossing⟩
  cases hcrossing with
  | there => exact Or.inl (hthere.imp (fun _ _ h => h) fun _ _ ho => ⟨rfl, ho⟩)
  | @within k hip hk =>
    rcases hk.lt_or_eq with hk | rfl
    · right
      have hstep := step_of_counts (hz.counts _ (List.getElem_mem hk))
        (Program.instr?_within head q hk) hlt c
      refine ⟨_, hstep, ⟨hn, ?_⟩, ?_⟩
      · have hwithin : n.Crossing head z q _ := .within hip hk
        rw [List.take_succ_eq_append_getElem hk, Tape.count_append] at hwithin
        exact hwithin
      · show head.size + z.length - (head.size + k + 1) < head.size + z.length - (head.size + k)
        omega
    · -- behind its last byte the machine is where `n` is
      left
      have hend : { n.withLoop head (.ofList z) q with
          tape := n.tape.count (z.take z.length), ip := head.size + z.length } =
          n.withLoop head (.ofList z) q := by
        rw [List.take_length, Tape.count_of_idle hz]
        simp only [withLoop, relocate, hip, makeRoom_of_le le_rfl, Program.size_ofList]
      rw [hend]
      exact hthere.imp (fun _ _ h => h) fun _ _ ho => ⟨rfl, ho⟩

end Crosses

end Machine

/-- The sessions of a program with idle text and of the program without it. -/
theorem Session.withIdle (hz : Idle z) (hl : 1 ≤ l.tapeSize) (head q : Program)
    (calls : List Call) :
    (∀ ends, Session (.new (head ++ .ofList z ++ q) l) calls ends →
      ∃ ends', Session (.new (head ++ q) l) calls ends' ∧
        List.Forall₂ (LeftAt (makeRoom head.size z.length) (head ++ .ofList z ++ q)) ends ends') ∧
    (∀ ends', Session (.new (head ++ q) l) calls ends' →
      ∃ ends, Session (.new (head ++ .ofList z ++ q) l) calls ends ∧
        List.Forall₂ (LeftAt (makeRoom head.size z.length) (head ++ .ofList z ++ q)) ends ends') := by
  refine Session.of_step (Q := Machine.Crosses head z q l)
    (μ := fun m => head.size + z.length - m.ip) ?_ (fun m n h c => h.step hz hl c) ?_ calls
  · intro m n h
    exact ⟨h.pointer_lt hl, h.sound.pointer_lt hl⟩
  · exact ⟨Machine.sound_new _ l, (Machine.around_new head (.ofList z) q l).crossing⟩

/-! ### Two relocations of one thing -/

section Relocations

variable {f f' g : Nat → Nat}

lemma Failure.position?_relocate (a : Failure) (f : Nat → Nat) :
    (a.relocate f).position? = a.position?.map f := by
  cases a <;> rfl

lemma Failure.eq_relocate {a a' : Failure} (hg : ∀ i j, f i = f' j → j = g i)
    (h : a.relocate f = a'.relocate f') : a' = a.relocate g := by
  cases a <;> cases a' <;> simp only [relocate, outOfBounds.injEq, unmatched.injEq,
    unterminated.injEq, stackOverflow.injEq, io.injEq, reduceCtorEq] at h ⊢
  case unterminated.unterminated => exact h.symm
  all_goals exact ⟨hg _ _ h.1, by simp [h.2]⟩

lemma Outcome.eq_relocate {o o' : Outcome} (hg : ∀ i j, f i = f' j → j = g i)
    (h : o.relocate f = o'.relocate f') : o' = o.relocate g := by
  cases o <;> cases o' <;> simp only [relocate, failed.injEq, reduceCtorEq] at h ⊢
  exact Failure.eq_relocate hg h

lemma LoopStack.eq_relocate {s s' : LoopStack} (hg : ∀ i j, f i = f' j → j = g i)
    (h : s.relocate f = s'.relocate f') : s' = s.relocate g := by
  have hlist : s.toList.map f = s'.toList.map f' := by
    rw [← toList_relocate, ← toList_relocate, h]
  rw [← List.forall₂_eq_eq_eq, List.forall₂_map_left_iff, List.forall₂_map_right_iff] at hlist
  have hentries : s'.toList = (s.relocate g).toList := by
    rw [toList_relocate, ← List.forall₂_eq_eq_eq, List.forall₂_map_right_iff]
    exact (hlist.imp hg).flip
  obtain ⟨entries, capacity⟩ := s
  obtain ⟨entries', capacity'⟩ := s'
  have hcapacity : capacity = capacity' := congrArg LoopStack.capacity h
  have hentries : entries' = entries.map g := Array.toList_inj.mp hentries
  rw [hcapacity, hentries, relocate]

lemma LoopStack.exists_of_mem {s s' : LoopStack} (h : s.relocate f = s'.relocate f') {i : Nat}
    (hi : i ∈ s.toList) : ∃ j, f i = f' j := by
  have hmem : f i ∈ (s.relocate f).toList := by
    rw [toList_relocate]
    exact List.mem_map_of_mem hi
  rw [h, toList_relocate] at hmem
  obtain ⟨j, -, hj⟩ := List.mem_map.mp hmem
  exact ⟨j, hj.symm⟩

end Relocations

/-! ### Text that is replaced -/

/-- Where room has been made in two ways for the same position. -/
lemma makeRoom_eq_makeRoom {k n n' r s i j : Nat} (hs : s + n' = n + r) (hn : n ≤ s)
    (h : makeRoom (k + n) r i = makeRoom k s j) : Outside k n i ∧ j = moved k n n' i := by
  unfold makeRoom at h
  unfold Outside moved
  split_ifs at h ⊢ <;> omega

/-- What is left in a program in which room is made in two ways. -/
lemma LeftAt.replacedAt {k n n' r s : Nat} {long : Program} {e₀ e e' : Run × Outcome}
    (hs : s + n' = n + r) (hn : n ≤ s) (h : LeftAt (makeRoom (k + n) r) long e₀ e)
    (h' : LeftAt (makeRoom k s) long e₀ e') :
    ReplacedAt k n n' e'.1.machine.program e e' := by
  have hg (i j : Nat) (hij : makeRoom (k + n) r i = makeRoom k s j) : j = moved k n n' i :=
    (makeRoom_eq_makeRoom hs hn hij).2
  have hmachine := h.machine.symm.trans h'.machine
  have hloops := congrArg Machine.loops hmachine
  have hout := h.outcome.symm.trans h'.outcome
  refine ⟨⟨?_, h'.console.symm.trans h.console, Outcome.eq_relocate hg hout⟩, ?_, fun i hi => ?_,
    fun a i ha hi => ?_⟩
  · have hip := hg _ _ (congrArg Machine.ip hmachine)
    have htape := congrArg Machine.tape hmachine
    change e.1.machine.tape = e'.1.machine.tape at htape
    rw [Machine.relocate, htape, ← LoopStack.eq_relocate hg hloops, ← hip]
  · exact (makeRoom_eq_makeRoom hs hn (congrArg Machine.ip hmachine)).1
  · obtain ⟨j, hj⟩ := LoopStack.exists_of_mem hloops hi
    exact (makeRoom_eq_makeRoom hs hn hj).1
  · rw [ha] at hout
    cases ho : e'.2 with
    | done | crashed =>
      rw [ho] at hout
      cases hout
    | failed a' =>
      rw [ho] at hout
      have hpos : a.position?.map (makeRoom (k + n) r) = a'.position?.map (makeRoom k s) := by
        rw [← Failure.position?_relocate, ← Failure.position?_relocate, Outcome.failed.inj hout]
      rw [hi, Option.map_some] at hpos
      obtain ⟨j, -, hj⟩ := Option.map_eq_some_iff.mp hpos.symm
      exact (makeRoom_eq_makeRoom hs hn hj.symm).1

/-- Sessions that are those of one session, with room made in two ways. -/
lemma replacedAt_of_leftAt {k n n' r s : Nat} {long p' : Program}
    {ends₀ ends ends' : List (Run × Outcome)} (hs : s + n' = n + r) (hn : n ≤ s)
    (hp : ∀ e' ∈ ends', e'.1.machine.program = p')
    (h : List.Forall₂ (LeftAt (makeRoom (k + n) r) long) ends₀ ends)
    (h' : List.Forall₂ (LeftAt (makeRoom k s) long) ends₀ ends') :
    List.Forall₂ (ReplacedAt k n n' p') ends ends' := by
  induction h generalizing ends' with
  | nil =>
    cases h'
    exact .nil
  | cons he _ ih =>
    cases h' with
    | cons he' hall =>
      obtain ⟨hp, hps⟩ := List.forall_mem_cons.mp hp
      exact .cons (hp ▸ he.replacedAt hs hn he') (ih hps hall)

/-- The runs of a session leave the program as it is. -/
lemma Session.program_eq {p : Program} {calls : List Call} {ends : List (Run × Outcome)}
    (hs : Session (.new p l) calls ends) : ∀ e ∈ ends, e.1.machine.program = p :=
  fun e he => (hs.reachable .new e he).sound.program

/-- **Wraparound.** Texts of `+` and `-` with net counts that are congruent modulo 256 can take each
other's place, whatever stands around them, in loops and in text that is only searched as well. Both
programs have the same sessions, on any channels and within any limits that allow a cell: each run ends
iff the other does, with the same tape and channels, and with the same outcome, position and stack, the
positions behind the text moved by the difference in length. So 256 `+`, or a `+` and a `-` in either
order, can be left out. -/
theorem Session.same_count (hl : 1 ≤ l.tapeSize) (h : SameCount u v) (calls : List Call) :
    let p : Program := .ofList (x ++ u ++ y)
    let p' : Program := .ofList (x ++ v ++ y)
    (∀ ends, Session (.new p l) calls ends → ∃ ends', Session (.new p' l) calls ends' ∧
      List.Forall₂ (ReplacedAt x.length u.length v.length p') ends ends') ∧
    (∀ ends', Session (.new p' l) calls ends' → ∃ ends, Session (.new p l) calls ends ∧
      List.Forall₂ (ReplacedAt x.length u.length v.length p') ends ends') ∧
    SameCount (List.replicate 256 Instr.increment.toByte) [] ∧
    SameCount [Instr.increment.toByte, Instr.decrement.toByte] [] ∧
    SameCount [Instr.decrement.toByte, Instr.increment.toByte] [] := by
  intro p p'
  obtain ⟨w, hw, hnet⟩ := exists_net (-net u)
  have hundo : Idle (u ++ w) := by
    refine ⟨h.left.append hw, ?_⟩
    rw [net_append, hnet, add_neg_cancel]
  have hredo : Idle (w ++ v) := by
    refine ⟨hw.append h.right, ?_⟩
    rw [net_append, hnet]
    exact (h.net.symm.add_left _).trans (by rw [neg_add_cancel])
  -- the program with both texts is the one with the first and the one with the second, idle text put in
  have hleft := Session.withIdle hredo hl (.ofList (x ++ u)) (.ofList y) calls
  have hright := Session.withIdle hundo hl (.ofList x) (.ofList (v ++ y)) calls
  simp only [← Program.ofList_append, ← List.append_assoc, Program.size_ofList,
    List.length_append] at hleft hright
  have hs : u.length + w.length + v.length = u.length + (w.length + v.length) := Nat.add_assoc _ _ _
  have hn : u.length ≤ u.length + w.length := Nat.le_add_right _ _
  refine ⟨fun ends hends => ?_, fun ends' hends' => ?_, ?_, ?_, ?_⟩
  · obtain ⟨ends₀, hends₀, hall⟩ := hleft.2 ends hends
    obtain ⟨ends', hends', hall'⟩ := hright.1 ends₀ hends₀
    exact ⟨ends', hends', replacedAt_of_leftAt hs hn hends'.program_eq hall hall'⟩
  · obtain ⟨ends₀, hends₀, hall'⟩ := hright.2 ends' hends'
    obtain ⟨ends, hends, hall⟩ := hleft.1 ends₀ hends₀
    exact ⟨ends, hends, replacedAt_of_leftAt hs hn hends'.program_eq hall hall'⟩
  · refine ⟨onlyCounts_replicate (Or.inl rfl) 256, by decide, ?_⟩
    rw [net_replicate_increment]
    decide
  · exact ⟨by decide, by decide, by decide⟩
  · exact ⟨by decide, by decide, by decide⟩

/-- In `+[-]]` the `-` does what 255 `+` do; the run fails at the last `]`, which is at position 4 or
258. -/
theorem Session.same_count_loop :
    let p : Program := .ofList [0x2b, 0x5b, 0x2d, 0x5d, 0x5d]
    let p' : Program := .ofList ([0x2b, 0x5b] ++ List.replicate 255 Instr.increment.toByte ++ [0x5d, 0x5d])
    let call : Call := ⟨.ofScripts [] [] [], true⟩
    SameCount [0x2d] (List.replicate 255 Instr.increment.toByte) ∧
    ∃ r r', Session (.new p ⟨4, 10⟩) [call] [(r, .failed (.unmatched 4 .closing))] ∧
      Session (.new p' ⟨4, 10⟩) [call] [(r', .failed (.unmatched 258 .closing))] ∧
      r.machine.tape = r'.machine.tape ∧ r.console = r'.console := by
  intro p p' call
  have h : SameCount [0x2d] (List.replicate 255 Instr.increment.toByte) := by
    refine ⟨by decide, onlyCounts_replicate (Or.inl rfl) 255, ?_⟩
    rw [net_replicate_increment]
    decide
  have ho : ((call.start (.new p ⟨4, 10⟩)).iterate 5).outcome? =
      some (.failed (.unmatched 4 .closing)) := by decide +kernel
  obtain ⟨r, hr⟩ := Run.exists_ends_of_outcome? ho
  have hs : Session (.new p ⟨4, 10⟩) [call] [(r, .failed (.unmatched 4 .closing))] :=
    .cons hr (.nil _)
  obtain ⟨hsession, -⟩ := Session.same_count (l := ⟨4, 10⟩) (x := [0x2b, 0x5b]) (y := [0x5d, 0x5d])
    (by decide) h [call]
  obtain ⟨ends, hs', hall⟩ := hsession _ hs
  cases hall with
  | @cons _ e' _ _ he hall =>
    cases hall
    rw [List.length_replicate] at he
    have hout : e'.2 = .failed (.unmatched 258 .closing) := he.left.outcome
    have htape : e'.1.machine.tape = r.machine.tape := by rw [he.left.machine]; rfl
    obtain ⟨r', o⟩ := e'
    subst hout
    exact ⟨h, r, r', hs, hs', htape.symm, he.left.console.symm⟩

end Brainfuck
