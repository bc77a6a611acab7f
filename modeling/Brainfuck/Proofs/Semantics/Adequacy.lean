import Brainfuck.Proofs.Semantics.BigStep
import Brainfuck.Proofs.Semantics.Final

/-!
Runs of balanced programs and the meaning of their trees agree (`ends_iff_yields`).

The machine that stands at `ip` inside the loops `around` is `Machine.standing`. From the meaning to
the run, a derivation is followed rule by rule (`Yields.finalAfter`); from the run to the meaning,
the induction is on the number of instructions left (`exists_yields`). In both directions the same
observation takes care of loops: at the `]` of a loop inside the loop, and at its `[` outside of it,
the machine does the same (`Machine.finalAfter_loopEnd`).
-/

namespace Brainfuck

/-- The text `s` stands at position `i` of a program. -/
def TextAt (p : Program) (i : Nat) (s : List UInt8) : Prop := s <+: p.toList.drop i

namespace TextAt

variable {p : Program} {i : Nat} {b : UInt8} {s s' : List UInt8}

lemma head (h : TextAt p i (b :: s)) : i < p.size ∧ p.instr? i = Instr.ofByte? b := by
  obtain ⟨u, hu⟩ := h
  have hb : p.toList[i]? = some b := by
    rw [← List.head?_drop, ← hu, List.cons_append, List.head?_cons]
  obtain ⟨hi, -⟩ := List.getElem?_eq_some_iff.mp hb
  rw [Program.size_eq, instr?_eq, instrAt, hb]
  exact ⟨hi, rfl⟩

lemma append (h : TextAt p i (s ++ s')) : TextAt p i s ∧ TextAt p (i + s.length) s' := by
  obtain ⟨u, hu⟩ := h
  refine ⟨⟨s' ++ u, by rw [← hu, List.append_assoc]⟩, ⟨u, ?_⟩⟩
  rw [← List.drop_drop, ← hu, List.append_assoc, List.drop_left]

lemma tail (h : TextAt p i (b :: s)) : TextAt p (i + 1) s :=
  (append (s := [b]) h).2

/-- The text that stands between two positions. -/
lemma extract (h : TextAt p i s) : p.toList.extract i (i + s.length) = s := by
  rw [List.extract_eq_take_drop, Nat.add_sub_cancel_left]
  exact (List.prefix_iff_eq_take.mp h).symm

end TextAt

/-- The machine at `ip` inside the loops that begin at `around`. -/
def Machine.standing (p : Program) (limit : Nat) (around : List Nat) (ip : Nat) (t : Tape) :
    Machine :=
  ⟨p, t, ⟨around.toArray, limit⟩, ip⟩

/-- What comes of the rest of a program, within `n` instructions, after a text that ends at `ip` has
come to a result. -/
def Result.finalAfter (p : Program) (limit : Nat) (around : List Nat) (ip n : Nat) :
    Result → Option Final
  | .finished t c => (Machine.standing p limit around ip t).finalAfter n c
  | .failed f t c ip around => some ⟨.failed f, t, c, ip, around⟩

/-- What is left where a program of the given length comes to a result. -/
def Result.final (length : Nat) : Result → Final
  | .finished t c => ⟨.done, t, c, length, []⟩
  | .failed f t c ip around => ⟨.failed f, t, c, ip, around⟩

variable {p : Program} {limit ip j n : Nat} {around : List Nat} {t : Tape} {c c' : Console}
  {a : Option Instr} {code body rest : Code}

lemma TextAt.loopStart (h : TextAt p ip (Code.loop body rest).text) :
    p.instr? ip = some .loopStart :=
  h.head.2.trans (Instr.ofByte?_toByte .loopStart)

/-- What follows a loop stands behind its `]`. -/
lemma TextAt.behind (h : TextAt p ip (Code.loop body rest).text) :
    TextAt p (ip + body.text.length + 2) rest.text := by
  have hrest := h.tail.append.2.tail
  rwa [show ip + 1 + body.text.length + 1 = ip + body.text.length + 2 by omega] at hrest

/-- The search finds the end of a loop. -/
lemma TextAt.loopEnd? (h : TextAt p ip (Code.loop body rest).text) :
    p.loopEnd? ip = some (ip + body.text.length + 1) := by
  obtain ⟨hbody, hend⟩ := h.tail.append
  rw [Program.loopEnd?_eq_some_iff, ← instr?_eq]
  have hpos : ip + body.text.length + 1 = ip + 1 + body.text.length := by omega
  rw [hpos, hend.head.2, hbody.extract]
  exact ⟨by omega, Instr.ofByte?_toByte _, Code.balanced_text body⟩

/-! ### One instruction of a standing machine -/

namespace Machine

/-- An instruction that is no bracket has its effect. -/
lemma finalAfter_effect {r : Except Failure Tape} (h : Effect ip t c a r c')
    (hi : ip < p.size) (ha : p.instr? ip = a) (hlt : t.pointer < t.length) (n : Nat) :
    (standing p limit around ip t).finalAfter (n + 1) c =
      match r with
      | .ok t' => (standing p limit around (ip + 1) t').finalAfter n c'
      | .error f => some ⟨.failed f, t, c', ip, around⟩ := by
  have hget : t.get?.isSome := (Tape.isSome_get? t).mpr hlt
  have hnext {a : Instr} (hb : p.instr? ip = some a) :=
    next_of_instr (m := standing p limit around ip t) hb
  rw [finalAfter_succ hlt]
  cases h with
  | comment => rw [next_of_comment hi ha]; rfl
  | right h =>
    have hb : t.rightBound? = none := if_pos h
    rw [hnext ha]
    simp only [actionOf, standing, hb]
    rfl
  | high h =>
    have hb : t.rightBound? = some .high := if_neg (Nat.not_lt.mpr h)
    rw [hnext ha]
    simp only [actionOf, standing, hb]
    rfl
  | left h =>
    have hb : t.leftBound? = none := if_neg h.ne'
    rw [hnext ha]
    simp only [actionOf, standing, hb]
    rfl
  | low h =>
    have hb : t.leftBound? = some .low := if_pos h
    rw [hnext ha]
    simp only [actionOf, standing, hb]
    rfl
  | increment | decrement =>
    rw [hnext ha]
    simp only [actionOf, standing, hget, if_true]
    rfl
  | write hb hp | writeFails hb hp =>
    rw [hnext ha]
    simp only [actionOf, standing, hb, hp]
    rfl
  | read ht | readEnds ht | readFails ht =>
    rw [hnext ha]
    simp only [actionOf, standing, ht]
    rfl

/-- At the end of the program a machine inside no loop is done. -/
lemma finalAfter_size (hlt : t.pointer < t.length) (n : Nat) :
    (standing p limit [] p.size t).finalAfter (n + 1) c = some ⟨.done, t, c, p.size, []⟩ := by
  rw [finalAfter_succ hlt, next_of_size_le le_rfl]
  rfl

section Loop

variable {b : UInt8} (hi : p.instr? ip = some .loopStart)

include hi

/-- A loop on a zero cell is passed over. -/
lemma finalAfter_skip (hj : p.loopEnd? ip = some j) (hb : t.get? = some 0) (n : Nat) :
    (standing p limit around ip t).finalAfter (n + 1) c =
      (standing p limit around (j + 1) t).finalAfter n c := by
  rw [finalAfter_succ (Tape.lt_of_get? hb), next_of_instr hi]
  simp only [actionOf, standing, hb, hj, if_true]
  rfl

lemma finalAfter_overflow (hb : t.get? = some b) (h0 : b ≠ 0) (hd : limit ≤ around.length)
    (n : Nat) : (standing p limit around ip t).finalAfter (n + 1) c =
      some ⟨.failed (.stackOverflow ip limit), t, c, ip, around⟩ := by
  rw [finalAfter_succ (Tape.lt_of_get? hb), next_of_instr hi]
  simp only [actionOf, standing, hb, if_neg h0, LoopStack.isFull, LoopStack.depth,
    List.size_toArray, decide_eq_true hd, if_true]
  rfl

lemma finalAfter_enter (hb : t.get? = some b) (h0 : b ≠ 0) (hd : around.length < limit)
    (n : Nat) : (standing p limit around ip t).finalAfter (n + 1) c =
      (standing p limit (around ++ [ip]) (ip + 1) t).finalAfter n c := by
  rw [finalAfter_succ (Tape.lt_of_get? hb), next_of_instr hi]
  simp only [actionOf, standing, hb, if_neg h0, LoopStack.isFull, LoopStack.depth,
    List.size_toArray, decide_eq_false (Nat.not_le.mpr hd), Bool.false_eq_true, if_false, perform,
    forward, LoopStack.add, List.push_toArray]

/-- **At the `]` of a loop and at its `[`** the machine does the same, inside the loop and outside
of it. -/
lemma finalAfter_loopEnd (hj : p.loopEnd? ip = some j) (hd : around.length < limit)
    (hlt : t.pointer < t.length) (n : Nat) :
    (standing p limit (around ++ [ip]) j t).finalAfter n c =
      (standing p limit around ip t).finalAfter n c := by
  obtain ⟨b, hb⟩ := Tape.exists_get? hlt
  obtain ⟨-, hend, -⟩ := Program.loopEnd?_eq_some_iff.mp hj
  rw [← instr?_eq] at hend
  have htop : (standing p limit (around ++ [ip]) j t).loops.top? = some ip := by
    rw [LoopStack.top?_eq]
    exact List.getLast?_concat
  rcases n with _ | n
  · rfl
  by_cases h0 : b = 0
  · subst h0
    have hnext : (standing p limit (around ++ [ip]) j t).next = .leave := by
      rw [next_of_instr hend, actionOf, htop]
      simp only [standing, hb, if_true]
    rw [finalAfter_skip hi hj hb, finalAfter_succ hlt, hnext]
    simp only [standing, perform, forward, LoopStack.drop, List.pop_toArray, List.dropLast_concat]
  · have hnext : (standing p limit (around ++ [ip]) j t).next = .again ip := by
      rw [next_of_instr hend, actionOf, htop]
      simp only [standing, hb, if_neg h0]
    rw [finalAfter_enter hi hb h0 hd, finalAfter_succ hlt, hnext]
    rfl

end Loop

end Machine

/-! ### From the meaning to the run -/

/-- **The run follows the meaning**: it comes to where a text has come to, after some number of
instructions. -/
theorem Yields.finalAfter {res : Result} (h : Yields limit around ip code t c res)
    (ht : TextAt p ip code.text) (hlt : t.pointer < t.length) :
    ∃ k, ∀ n, (Machine.standing p limit around ip t).finalAfter (n + k) c =
      res.finalAfter p limit around (ip + code.text.length) n := by
  induction h with
  | done => exact ⟨0, fun n => rfl⟩
  | @byte around ip b _ rest t t' c c' res he _ ih =>
    obtain ⟨k, hk⟩ := ih ht.tail (he.pointer_lt rfl hlt)
    refine ⟨k + 1, fun n => ?_⟩
    rw [← Nat.add_assoc, Machine.finalAfter_effect he ht.head.1 ht.head.2 hlt]
    simp only [hk]
    rw [Code.text, List.length_cons, Nat.add_right_comm ip 1, Nat.add_assoc ip]
  | byteFails he =>
    exact ⟨1, fun n => Machine.finalAfter_effect he ht.head.1 ht.head.2 hlt n⟩
  | @skip around ip body rest t c res hb _ ih =>
    obtain ⟨k, hk⟩ := ih ht.behind hlt
    refine ⟨k + 1, fun n => ?_⟩
    rw [← Nat.add_assoc, Machine.finalAfter_skip ht.loopStart ht.loopEnd? hb, hk]
    congr 1
    simp only [Code.text, List.length_cons, List.length_append]
    omega
  | overflow hb h0 hd =>
    exact ⟨1, fun n => Machine.finalAfter_overflow ht.loopStart hb h0 hd n⟩
  | bodyFails hb h0 hd _ ih =>
    obtain ⟨k, hk⟩ := ih ht.tail.append.1 hlt
    refine ⟨k + 1, fun n => ?_⟩
    rw [← Nat.add_assoc, Machine.finalAfter_enter ht.loopStart hb h0 hd, hk]
    rfl
  | @again around ip body rest t t' c c' b res hb h0 hd hbody _ ihb ih =>
    have hlt' := hbody.pointer_lt rfl hlt
    have ho := ht.loopStart
    -- into the loop, through its body, and from its `]` on as from its `[`
    obtain ⟨kb, hkb⟩ := ihb ht.tail.append.1 hlt
    obtain ⟨k, hk⟩ := ih ht hlt'
    refine ⟨k + kb + 1, fun n => ?_⟩
    rw [← Nat.add_assoc, ← Nat.add_assoc, Machine.finalAfter_enter ho hb h0 hd, hkb,
      Result.finalAfter, Nat.add_right_comm ip 1, Machine.finalAfter_loopEnd ho ht.loopEnd? hd hlt',
      hk]

/-! ### From the run to the meaning -/

/-- **The meaning follows the run**: a run that ends has brought the text at which it stands to a
result, and has gone on from there. -/
theorem exists_yields {final : Final} (n : Nat)
    (h : (Machine.standing p limit around ip t).finalAfter n c = some final)
    (ht : TextAt p ip code.text) (hlt : t.pointer < t.length) :
    ∃ res k, k ≤ n ∧ Yields limit around ip code t c res ∧
      res.finalAfter p limit around (ip + code.text.length) k = some final := by
  induction n using Nat.strong_induction_on generalizing around ip code t c with
  | _ n ih =>
  -- all but the end of the text takes an instruction, so what comes behind it has fewer left
  rcases code with _ | ⟨b, plain, rest⟩ | ⟨body, rest⟩
  · exact ⟨_, n, le_rfl, .done, h⟩
  · rcases n with _ | n
    · cases h
    have hpos : ip + 1 + rest.text.length = ip + (Code.byte b plain rest).text.length := by
      rw [Code.text, List.length_cons, Nat.add_right_comm, Nat.add_assoc]
    obtain ⟨r, c', he⟩ := Effect.exists (a := Instr.ofByte? b) ip c hlt
      (fun hb => plain.1 (Instr.ofByte?_eq_some_iff.mp hb))
      (fun hb => plain.2 (Instr.ofByte?_eq_some_iff.mp hb))
    rw [Machine.finalAfter_effect he ht.head.1 ht.head.2 hlt] at h
    cases r with
    | error f => exact ⟨_, 0, Nat.zero_le _, .byteFails he, h⟩
    | ok t' =>
      obtain ⟨res, k, hk, hy, hres⟩ := ih n (Nat.lt_succ_self n) h ht.tail (he.pointer_lt rfl hlt)
      exact ⟨res, k, by omega, .byte he hy, hpos ▸ hres⟩
  · rcases n with _ | n
    · cases h
    have ho := ht.loopStart
    have hpos : ip + body.text.length + 2 + rest.text.length =
        ip + (Code.loop body rest).text.length := by
      simp only [Code.text, List.length_cons, List.length_append]
      omega
    obtain ⟨b, hb⟩ := Tape.exists_get? hlt
    by_cases h0 : b = 0
    · subst h0
      rw [Machine.finalAfter_skip ho ht.loopEnd? hb] at h
      obtain ⟨res, k, hk, hy, hres⟩ := ih n (Nat.lt_succ_self n) h ht.behind hlt
      exact ⟨res, k, by omega, .skip hb hy, hpos ▸ hres⟩
    rcases Nat.lt_or_ge around.length limit with hd | hd
    swap
    · rw [Machine.finalAfter_overflow ho hb h0 hd] at h
      exact ⟨_, 0, Nat.zero_le _, .overflow hb h0 hd, h⟩
    rw [Machine.finalAfter_enter ho hb h0 hd] at h
    obtain ⟨res, k, hk, hbody, hres⟩ := ih n (Nat.lt_succ_self n) h ht.tail.append.1 hlt
    cases res with
    | failed f t' c' ip' around' => exact ⟨_, 0, Nat.zero_le _, .bodyFails hb h0 hd hbody, hres⟩
    | finished t' c' =>
      -- at the `]` the machine does what it does at the `[`, with fewer instructions left
      have hlt' := hbody.pointer_lt rfl hlt
      rw [Result.finalAfter, Nat.add_right_comm,
        Machine.finalAfter_loopEnd ho ht.loopEnd? hd hlt'] at hres
      obtain ⟨res, k', hk', hy, hres⟩ := ih k (by omega) hres ht hlt'
      exact ⟨res, k', by omega, .again hb h0 hd hbody hy, hres⟩

/-! ### Programs -/

lemma pointer_blank_lt (h : 1 ≤ n) : (Tape.blank n).pointer < (Tape.blank n).length := by
  rw [Tape.length_blank]
  exact h

/-- What a run of a new machine leaves is what the tree of the program yields. -/
lemma finalAfter_new_iff {l : Limits} {final : Final} (ht : code.text = p.toList)
    (hl : 1 ≤ l.tapeSize) :
    (∃ n, (Machine.new p l).finalAfter n c = some final) ↔
      ∃ res, Yields l.stackDepth [] 0 code (.blank l.tapeSize) c res ∧
        res.final p.size = final := by
  have hlt := pointer_blank_lt hl
  have hat : TextAt p 0 code.text := by
    rw [TextAt, ht]
    exact List.prefix_rfl
  have hend : 0 + code.text.length = p.size := by
    rw [ht, Program.size_eq, Nat.zero_add]
  constructor
  · rintro ⟨n, hn⟩
    obtain ⟨res, k, -, hy, hres⟩ := exists_yields n hn hat hlt
    refine ⟨res, hy, ?_⟩
    rw [hend] at hres
    cases res with
    | failed f t c ip around => exact Option.some.inj hres
    | finished t' c' =>
      rcases k with _ | k
      · cases hres
      rw [Result.finalAfter, Machine.finalAfter_size (hy.pointer_lt rfl hlt)] at hres
      exact Option.some.inj hres
  · rintro ⟨res, hy, rfl⟩
    obtain ⟨k, hk⟩ := hy.finalAfter hat hlt
    refine ⟨1 + k, (hk 1).trans ?_⟩
    rw [hend]
    cases res with
    | failed f t c ip around => rfl
    | finished t' c' => exact Machine.finalAfter_size (hy.pointer_lt rfl hlt) 0

/-- **Runs and meanings agree.** A balanced program has a tree. A run of it, on a new machine whose
tape has a cell, ends as the tree yields, whatever the channels do, and in no other way; and it
never ends iff the tree yields nothing. -/
theorem ends_iff_yields {l : Limits} (hb : Balanced p.toList) (hl : 1 ≤ l.tapeSize)
    (call : Call) : ∃ code, Code.ofText? p.toList = some code ∧
      (∀ final, (∃ r o, (call.start (.new p l)).Ends r o ∧ r.final o = final) ↔
        ∃ res, Yields l.stackDepth [] 0 code (.blank l.tapeSize) call.console res ∧
          res.final p.size = final) ∧
      ((call.start (.new p l)).Diverges ↔
        ¬ ∃ res, Yields l.stackDepth [] 0 code (.blank l.tapeSize) call.console res) := by
  obtain ⟨code, hcode⟩ := Code.balanced_iff.mp hb
  have hlt := pointer_blank_lt hl
  have hends (final : Final) :
      (∃ r o, (call.start (.new p l)).Ends r o ∧ r.final o = final) ↔
        ∃ res, Yields l.stackDepth [] 0 code (.blank l.tapeSize) call.console res ∧
          res.final p.size = final := by
    rw [Run.exists_ends_iff, ← finalAfter_new_iff (Code.ofText?_eq_some_iff.mp hcode) hl]
    exact exists_congr fun n => by rw [Run.finalAfter_eq hlt]; rfl
  refine ⟨code, hcode, hends, ?_⟩
  rw [Run.diverges_iff, not_iff_not]
  constructor
  · rintro ⟨r, o, he⟩
    obtain ⟨res, hy, -⟩ := (hends _).mp ⟨r, o, he, rfl⟩
    exact ⟨res, hy⟩
  · rintro ⟨res, hy⟩
    obtain ⟨r, o, he, -⟩ := (hends _).mpr ⟨res, hy, rfl⟩
    exact ⟨r, o, he⟩

/-- The inner loop of `+[[<]]` fails on the first cell, and so does the whole, inside both loops. -/
theorem ends_iff_yields_nested :
    let p : Program := .ofList [0x2b, 0x5b, 0x5b, 0x3c, 0x5d, 0x5d]
    let c : Console := .ofScripts [] [] []
    Balanced p.toList ∧ ∃ code res, Code.ofText? p.toList = some code ∧
      Yields 10 [] 0 code (.blank 4) c res ∧
      (res.final p.size).outcome = .failed (.outOfBounds 3 0 .low) ∧
      (res.final p.size).loops = [1, 2] := by
  intro p c
  have hb : Balanced p.toList := by decide
  obtain ⟨code, hcode, hends, -⟩ := ends_iff_yields (l := ⟨4, 10⟩) hb (by decide) ⟨c, false⟩
  have hf : ((Run.start (.new p ⟨4, 10⟩) c false).finalAfter 4).map (fun f => (f.outcome, f.loops)) =
      some (.failed (.outOfBounds 3 0 .low), [1, 2]) := by decide +kernel
  obtain ⟨final, hfinal, ho⟩ := Option.map_eq_some_iff.mp hf
  obtain ⟨res, hy, rfl⟩ := (hends final).mp (Run.exists_ends_iff.mpr ⟨4, hfinal⟩)
  obtain ⟨h1, h2⟩ := Prod.mk.inj ho
  exact ⟨hb, code, res, hcode, hy, h1, h2⟩

end Brainfuck
