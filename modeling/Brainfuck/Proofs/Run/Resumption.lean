import Brainfuck.Proofs.Run.Absorption

/-!
Runs that are resumed after each failure of a channel, with what is left of the channels
(`Run.Resumes`), against one run whose channels never fail. The input of that run is what the first
one delivers without its faults; its output is what is left of the bytes written when those are taken
away whose flush has failed (`flushed`).

A failure of a channel changes neither the machine nor what the other run has before it: no byte of
the input is taken with it, and a byte that was written all the same is the one that is due again.
So the two stand at the same machine with channels that mirror each other (`Run.Mirrors`) at every
instruction, and each failure uses up one item of the scripts (`Console.pending`).
-/

namespace Brainfuck

/-- Whether a read call fails. -/
def Delivery.isFault : Delivery → Bool
  | .fault _ => true
  | .byte _ | .eof => false

/-- The input without its faults; the ends in it are kept. -/
def faultless (input : List Delivery) : List Delivery :=
  input.filter fun d => !d.isFault

/-- The bytes written without those whose flush has failed. Each byte is flushed on its own, so the
fates are those of the bytes one by one. -/
def flushed : List FlushFate → List UInt8 → List UInt8
  | _, [] => []
  | [], bytes => bytes
  | .accept :: fates, b :: bytes => b :: flushed fates bytes
  | .fault _ :: fates, _ :: bytes => flushed fates bytes

/-- The bytes accepted so far. -/
def Console.written (c : Console) : List UInt8 := c.output.data.toList

/-- The number of items left in the scripts. -/
def Console.pending (c : Console) : Nat :=
  c.input.length + c.writeFates.length + c.flushFates.length

/-- The byte that a machine is about to write, if it is about to write one. -/
def Machine.due (m : Machine) : List UInt8 :=
  match m.next with
  | .emit b => [b]
  | _ => []

/-- The run `r`, and as long as a channel has failed another run of the machine with the channels as
they were left, has come to its end as `r'` with the outcome `o`. The bytes written are those of all
these runs. -/
inductive Run.Resumes (r : Run) : Run → Outcome → Prop
  | first {r' : Run} {o : Outcome} : r.Ends r' o → Resumes r r' o
  | again {r₁ r' : Run} {i : Nat} {f : Fault} {o : Outcome} (traced : Bool) :
      Resumes r r₁ (.failed (.io i f)) →
      ((Call.mk r₁.console traced).start r₁.machine).Ends r' o → Resumes r r' o

/-- The channels `c'` never fail, and as far as the machine `m` they have given and taken the same
as `c`, whose script of flushes was `fates` in the beginning. -/
structure Console.Mirrors (fates : List FlushFate) (m : Machine) (c c' : Console) : Prop where
  input : c'.input = faultless c.input
  writeFates : c'.writeFates = []
  flushFates : c'.flushFates = []
  written : c'.written = flushed fates c.written
  flushes : c.flushes = c.written.length
  rest : c.flushFates = fates.drop c.written.length
  /-- A byte whose flush has failed was written again at once, or is due now. -/
  repeated : ∀ i b f, c.written[i]? = some b → fates[i]? = some (.fault f) →
    (c.written ++ m.due)[i + 1]? = some b

/-- The run `r'` is at the machine of `r`, with channels that never fail. -/
structure Run.Mirrors (fates : List FlushFate) (r r' : Run) : Prop where
  machine : r'.machine = r.machine
  inRange : r.machine.tape.pointer < r.machine.tape.length
  console : r.console.Mirrors fates r.machine r'.console

variable {fates : List FlushFate} {m m₁ : Machine} {c c' c₁ : Console} {r r' r₁ r₂ : Run}
  {o : Outcome} {b : UInt8} {bytes : List UInt8} {f : Fault} {l : Limits}

/-! ### The bytes that were flushed -/

@[simp] lemma flushed_nil (bytes : List UInt8) : flushed [] bytes = bytes := by
  cases bytes <;> rfl

@[simp] lemma flushed_empty (fates : List FlushFate) : flushed fates [] = [] := by
  rcases fates with _ | ⟨_ | _, _⟩ <;> rfl

lemma flushed_concat_of_fault (h : fates[bytes.length]? = some (.fault f)) :
    flushed fates (bytes ++ [b]) = flushed fates bytes := by
  induction fates, bytes using flushed.induct with
  | case1 fates =>
    obtain ⟨rest, rfl⟩ := List.head?_eq_some_iff.mp (List.head?_eq_getElem?.trans h)
    simp [flushed]
  | case2 bytes => simp at h
  | case3 fates b' bytes ih => exact congrArg (b' :: ·) (ih (by simpa using h))
  | case4 f' fates b' bytes ih => exact ih (by simpa using h)

lemma flushed_concat (h : ∀ f, fates[bytes.length]? ≠ some (.fault f)) :
    flushed fates (bytes ++ [b]) = flushed fates bytes ++ [b] := by
  induction fates, bytes using flushed.induct with
  | case1 fates =>
    rcases fates with _ | ⟨_ | f, fates⟩
    · rfl
    · simp [flushed]
    · exact absurd rfl (h f)
  | case2 bytes => simp
  | case3 fates b' bytes ih => exact congrArg (b' :: ·) (ih (by simpa using h))
  | case4 f' fates b' bytes ih => exact ih (by simpa using h)

/-! ### What the channels do -/

namespace Console

/-- What comes of a read. -/
inductive Takes (c : Console) : Except Fault (Option UInt8) → Console → Prop
  | failed {f : Fault} {input : List Delivery} {n : Nat} : faultless input = faultless c.input →
      input.length < c.input.length → Takes c (.error f) { c with input, reads := n }
  | answered {a : Option UInt8} {input : List Delivery} {n : Nat} :
      (∀ c' : Console, c'.input = faultless c.input →
        ∃ k, c'.take = (.ok a, { c' with input := faultless input, reads := k })) →
      input.length ≤ c.input.length → Takes c (.ok a) { c with input, reads := n }

/-- The channels after a byte was taken and flushed, whatever has come of the flush. -/
def push (c : Console) (b : UInt8) (writeFates : List WriteFate) (writes : Nat) : Console :=
  { c with
    writeFates, writes
    flushFates := c.flushFates.tail
    output := c.output.push b
    flushes := c.flushes + 1 }

/-- What comes of a write and its flush. -/
inductive Puts (b : UInt8) (c : Console) : Except Fault Unit → Console → Prop
  | refused {f : Fault} {writeFates : List WriteFate} {n : Nat} :
      writeFates.length < c.writeFates.length →
      Puts b c (.error f) { c with writeFates, writes := n }
  | unflushed {f : Fault} {writeFates : List WriteFate} {n : Nat} :
      writeFates.length ≤ c.writeFates.length → c.flushFates.head? = some (.fault f) →
      Puts b c (.error f) (c.push b writeFates n)
  | flushed {writeFates : List WriteFate} {n : Nat} :
      writeFates.length ≤ c.writeFates.length → (∀ f, c.flushFates.head? ≠ some (.fault f)) →
      Puts b c (.ok ()) (c.push b writeFates n)

lemma take_go (input : List Delivery) (n : Nat) :
    match take.go input n with
    | (.error _, rest, _) => faultless rest = faultless input ∧ rest.length < input.length
    | (.ok a, rest, _) =>
      (∀ n', ∃ k, take.go (faultless input) n' = (.ok a, faultless rest, k)) ∧
        rest.length ≤ input.length := by
  induction input generalizing n with
  | nil => exact ⟨fun n' => ⟨n' + 1, rfl⟩, le_rfl⟩
  | cons d input ih =>
    cases d with
    | byte b | eof => exact ⟨fun n' => ⟨n' + 1, rfl⟩, by simp⟩
    | fault f =>
      rw [take.go]
      split_ifs
      · have hrest := ih (n + 1)
        split at hrest
        · exact ⟨hrest.1, Nat.lt_succ_of_lt hrest.2⟩
        · exact ⟨hrest.1, Nat.le_succ_of_le hrest.2⟩
      · exact ⟨rfl, by simp⟩

lemma takes_take (c : Console) : Takes c c.take.1 c.take.2 := by
  obtain ⟨input, writeFates, flushFates, output, reads, writes, flushes⟩ := c
  have hgo := take_go input reads
  rw [take]
  generalize take.go input reads = answer at hgo
  obtain ⟨f | a, rest, n⟩ := answer
  · exact .failed hgo.1 hgo.2
  · refine .answered (fun c' hc' => ?_) hgo.2
    obtain ⟨k, hk⟩ := hgo.1 c'.reads
    exact ⟨k, by rw [take, hc', hk]⟩

/-- A write gives up no more of its script than there is, and less than that when it fails. -/
lemma settleWrite_cases (fates : List WriteFate) (n : Nat) :
    (∃ f rest k, settleWrite fates n = (.error f, rest, k) ∧ rest.length < fates.length) ∨
      ∃ rest k, settleWrite fates n = (.ok (), rest, k) ∧ rest.length ≤ fates.length := by
  induction fates generalizing n with
  | nil => exact .inr ⟨[], n + 1, rfl, le_rfl⟩
  | cons w fates ih =>
    cases w with
    | accept => exact .inr ⟨fates, n + 1, rfl, by simp⟩
    | nothing => exact .inl ⟨_, fates, n + 1, rfl, by simp⟩
    | fault f =>
      rw [settleWrite]
      split_ifs
      · rcases ih (n + 1) with ⟨f', rest, k, h, hlt⟩ | ⟨rest, k, h, hle⟩
        · exact .inl ⟨f', rest, k, h, Nat.lt_succ_of_lt hlt⟩
        · exact .inr ⟨rest, k, h, Nat.le_succ_of_le hle⟩
      · exact .inl ⟨f, fates, n + 1, rfl, by simp⟩

lemma puts_put (b : UInt8) (c : Console) : Puts b c (c.put b).1 (c.put b).2 := by
  obtain ⟨input, writeFates, flushFates, output, reads, writes, flushes⟩ := c
  rw [put]
  rcases settleWrite_cases writeFates writes with ⟨f, rest, k, h, hlt⟩ | ⟨rest, k, h, hle⟩
  · rw [h]
    exact .refused hlt
  · rw [h]
    rcases flushFates with _ | ⟨_ | f, flushFates⟩
    · exact .flushed hle (by simp)
    · exact .flushed hle (by simp)
    · exact .unflushed hle rfl

lemma put_of_nil (hw : c.writeFates = []) (hf : c.flushFates = []) (b : UInt8) :
    c.put b = (.ok (), c.push b [] (c.writes + 1)) := by
  obtain ⟨input, writeFates, flushFates, output, reads, writes, flushes⟩ := c
  cases hw
  cases hf
  rfl

@[simp] lemma written_push (c : Console) (b : UInt8) (writeFates : List WriteFate) (n : Nat) :
    (c.push b writeFates n).written = c.written ++ [b] :=
  Array.toList_push

lemma pending_push_le {writeFates : List WriteFate}
    (hle : writeFates.length ≤ c.writeFates.length) (n : Nat) :
    (c.push b writeFates n).pending ≤ c.pending := by
  simp only [pending, push, List.length_tail]
  omega

lemma pending_push_lt {writeFates : List WriteFate}
    (hle : writeFates.length ≤ c.writeFates.length) (n : Nat) (hf : c.flushFates ≠ []) :
    (c.push b writeFates n).pending < c.pending := by
  have hpos := List.length_pos_of_ne_nil hf
  simp only [pending, push, List.length_tail]
  omega

namespace Mirrors

lemma head?_flushFates (h : c.Mirrors fates m c') :
    c.flushFates.head? = fates[c.written.length]? := by
  rw [h.rest, List.head?_drop]

/-- A machine that is not about to write leaves it to the next one what that is about to do. -/
lemma of_due (h : c.Mirrors fates m c') (hd : m.due = []) (m₁ : Machine) :
    c.Mirrors fates m₁ c' := by
  refine { h with repeated := fun i b f hb hf => ?_ }
  have hnext := h.repeated i b f hb hf
  rw [hd, List.append_nil] at hnext
  rw [List.getElem?_append_left (List.getElem?_eq_some_iff.mp hnext).1, hnext]

/-- After a byte that was due, which is due again if its flush has failed. -/
lemma of_push (h : c.Mirrors fates m c') (hd : m.due = [b])
    (hd₁ : ∀ f, c.flushFates.head? = some (.fault f) → m₁.due = [b]) {writeFates : List WriteFate}
    {n : Nat} (hi : c₁.input = c'.input) (hw : c₁.writeFates = []) (hf : c₁.flushFates = [])
    (ho : c₁.written = flushed fates (c.written ++ [b])) :
    (c.push b writeFates n).Mirrors fates m₁ c₁ where
  input := hi.trans h.input
  writeFates := hw
  flushFates := hf
  written := by rw [ho, written_push]
  flushes := by
    rw [written_push, List.length_append, ← h.flushes]
    rfl
  rest := by
    rw [written_push, List.length_append, List.length_singleton, ← List.tail_drop, ← h.rest]
    rfl
  repeated := by
    intro i b' f hb hfate
    rw [written_push] at hb ⊢
    rcases Nat.lt_or_ge i c.written.length with hlt | hle
    · -- a byte before this one, which it repeats if it has to
      have hnext := h.repeated i b' f (by rwa [List.getElem?_append_left hlt] at hb) hfate
      rw [hd] at hnext
      rw [List.getElem?_append_left (List.getElem?_eq_some_iff.mp hnext).1, hnext]
    · have hlt := (List.getElem?_eq_some_iff.mp hb).1
      obtain rfl : i = c.written.length := by
        rw [List.length_append, List.length_singleton] at hlt
        omega
      rw [hd₁ f (h.head?_flushFates.trans hfate)]
      simpa using hb

lemma push_unflushed (h : c.Mirrors fates m c') (hd : m.due = [b])
    (hf : c.flushFates.head? = some (.fault f)) (writeFates : List WriteFate) (n : Nat) :
    (c.push b writeFates n).Mirrors fates m c' := by
  refine h.of_push hd (fun _ _ => hd) rfl h.writeFates h.flushFates ?_
  rw [flushed_concat_of_fault (h.head?_flushFates ▸ hf), h.written]

lemma push_flushed (h : c.Mirrors fates m c') (hd : m.due = [b])
    (hf : ∀ f, c.flushFates.head? ≠ some (.fault f)) (m₁ : Machine) (writeFates : List WriteFate)
    (n : Nat) : (c.push b writeFates n).Mirrors fates m₁ (c'.push b [] (c'.writes + 1)) := by
  refine h.of_push hd (fun f h' => absurd h' (hf f)) rfl rfl ?_ ?_
  · rw [push, h.flushFates]
    rfl
  · rw [written_push, flushed_concat (h.head?_flushFates ▸ hf), h.written]

/-- **One instruction of a machine**, with channels that fail and with channels that never do. It
does the same on both; or nothing is done because a channel has failed; or nothing is done on
either. -/
theorem step (h : c.Mirrors fates m c') :
    (∃ m₁ c₁ c₁', m.step c = .goes m₁ c₁ ∧ m.step c' = .goes m₁ c₁' ∧ c₁.Mirrors fates m₁ c₁' ∧
      c₁.pending ≤ c.pending) ∨
    (∃ i f c₁, m.step c = .stops (.failed (.io i f)) c₁ ∧ c₁.Mirrors fates m c' ∧
      c₁.pending < c.pending) ∨
    ∃ o, m.step c = .stops o c ∧ m.step c' = .stops o c' ∧ ¬ o.isIo := by
  cases ha : m.next with
  | halt | fail failure | crash =>
    obtain ⟨o, ho⟩ : ∃ o, m.next.outcome? = some o := by
      rw [ha]
      exact ⟨_, rfl⟩
    exact .inr (.inr ⟨_, Machine.step_of_outcome? ho c, Machine.step_of_outcome? ho c',
      Machine.not_isIo_of_outcome? ho⟩)
  | emit b =>
    have hd : m.due = [b] := by rw [Machine.due, ha]
    rw [Machine.step_of_emit ha, Machine.step_of_emit ha]
    have hputs := puts_put b c
    rcases hp : c.put b with ⟨answer, c₁⟩
    rw [hp] at hputs
    cases hputs with
    | refused hlt =>
      -- no byte was taken, so there is nothing to repeat and nothing to take away
      refine .inr (.inl ⟨_, _, _, rfl, { h with }, ?_⟩)
      exact Nat.add_lt_add_right (Nat.add_lt_add_left hlt _) _
    | unflushed hle hf =>
      have hne : c.flushFates ≠ [] := by
        rintro h'
        simp [h'] at hf
      exact .inr (.inl ⟨_, _, _, rfl, h.push_unflushed hd hf _ _, pending_push_lt hle _ hne⟩)
    | flushed hle hf =>
      rw [put_of_nil h.writeFates h.flushFates]
      exact .inl ⟨_, _, _, rfl, rfl, h.push_flushed hd hf _ _ _, pending_push_le hle _⟩
  | accept =>
    have hd : m.due = [] := by rw [Machine.due, ha]
    rw [Machine.step_of_accept ha, Machine.step_of_accept ha]
    have htakes := takes_take c
    rcases ht : c.take with ⟨answer, c₁⟩
    rw [ht] at htakes
    cases htakes with
    | failed hi hlt =>
      refine .inr (.inl ⟨_, _, _, rfl, { h with input := h.input.trans hi.symm }, ?_⟩)
      exact Nat.add_lt_add_right (Nat.add_lt_add_right hlt _) _
    | @answered a input n hc' hle =>
      obtain ⟨k, hk⟩ := hc' c' h.input
      have hm : ({ c with input, reads := n } : Console).Mirrors fates m
          { c' with input := faultless input, reads := k } := { h with input := rfl }
      have hle' : ({ c with input, reads := n } : Console).pending ≤ c.pending :=
        Nat.add_le_add_right (Nat.add_le_add_right hle _) _
      rw [hk]
      cases a with
      | none => exact .inl ⟨_, _, _, rfl, rfl, hm.of_due hd _, hle'⟩
      | some b => exact .inl ⟨_, _, _, rfl, rfl, hm.of_due hd _, hle'⟩
  | pass | right | left | increment | decrement | enter | skip j | again i | leave =>
    have hd : m.due = [] := by rw [Machine.due, ha]
    rw [Machine.step, Machine.step, ha]
    exact .inl ⟨_, c, c', rfl, rfl, h.of_due hd _, le_rfl⟩

end Mirrors

end Console

namespace Run

/-! ### Runs that are resumed -/

lemma Resumes.of_running (h : r₁.Resumes r' o) (ha : r.advance = .running r₁) :
    r.Resumes r' o := by
  induction h with
  | first he => exact .first ((ends_of_running ha).mpr he)
  | again traced _ he ih => exact .again traced ih he

lemma Resumes.of_ends {i : Nat} {traced : Bool} (he : r.Ends r₁ (.failed (.io i f)))
    (h : ((Call.mk r₁.console traced).start r₁.machine).Resumes r' o) : r.Resumes r' o := by
  induction h with
  | first he' => exact .again traced (.first he) he'
  | again traced' _ he' ih => exact .again traced' ih he'

namespace Mirrors

lemma goOn (h : r.Mirrors fates r') (hs : r.machine.step r.console = .goes m₁ c₁) {c₁' : Console}
    (hc : c₁.Mirrors fates m₁ c₁') : (r.goOn m₁ c₁).Mirrors fates (r'.goOn m₁ c₁') where
  machine := by simp
  inRange := by
    rw [machine_goOn]
    exact (moves_of_step h.inRange hs).pointer_lt h.inRange
  console := by simpa using hc

lemma start (p : Program) {l : Limits} (hl : 1 ≤ l.tapeSize) (input : List Delivery)
    (writes : List WriteFate) (flushes : List FlushFate) (traced traced' : Bool) :
    ((Call.mk (.ofScripts input writes flushes) traced).start (.new p l)).Mirrors flushes
      ((Call.mk (.ofScripts (faultless input) [] []) traced').start (.new p l)) where
  machine := rfl
  inRange := (Machine.sound_new p l).pointer_lt hl
  console := {
    input := rfl
    writeFates := rfl
    flushFates := rfl
    written := (flushed_empty flushes).symm
    flushes := rfl
    rest := rfl
    repeated := fun i b f hb _ => by cases hb }

/-- The end of a run, unless a channel has failed, is the end of the other one too. -/
theorem of_ends (h : r.Mirrors fates r') (he : r.Ends r₁ o) :
    ∃ n r₁', r'.iterate n = .running r₁' ∧ r₁.Mirrors fates r₁' ∧
      (¬ o.isIo → ∃ r₂, r'.Ends r₂ o ∧ r₁.Mirrors fates r₂) := by
  obtain ⟨n, hn⟩ := he
  induction n generalizing r r' with
  | zero => cases hn
  | succ n ih =>
    have hlt' : r'.machine.tape.pointer < r'.machine.tape.length := h.machine ▸ h.inRange
    rcases h.console.step with ⟨m₁, c₁, c₁', hs, hs', hc, -⟩ | ⟨i, f, c₁, hs, hc, -⟩ |
      ⟨o', hs, hs', hio⟩
    · have ha' := advance_of_goes hlt' (h.machine ▸ hs')
      rw [iterate_succ_of_running (advance_of_goes h.inRange hs)] at hn
      obtain ⟨k, r₁', hk, hm, hend⟩ := ih (h.goOn hs hc) hn
      refine ⟨k + 1, r₁', by rw [iterate_succ_of_running ha', hk], hm, fun hio => ?_⟩
      obtain ⟨r₂, he₂, hm₂⟩ := hend hio
      exact ⟨r₂, (ends_of_running ha').mpr he₂, hm₂⟩
    · rw [iterate_succ_of_ended (advance_of_stops h.inRange hs)] at hn
      cases hn
      exact ⟨0, r', rfl, ⟨h.machine, h.inRange, hc⟩, fun hio => absurd rfl hio⟩
    · rw [iterate_succ_of_ended (advance_of_stops h.inRange hs)] at hn
      cases hn
      have hend := (ends_of_ended (advance_of_stops hlt' (h.machine ▸ hs'))).mpr ⟨rfl, rfl⟩
      exact ⟨0, r', rfl, ⟨h.machine, h.inRange, h.console⟩,
        fun _ => ⟨_, hend, ⟨h.machine, h.inRange, h.console⟩⟩⟩

/-- **Where a run that is resumed has stopped**, the other one passes. -/
theorem of_resumes (h : r.Mirrors fates r') (hr : r.Resumes r₁ o) :
    ∃ n r₁', r'.iterate n = .running r₁' ∧ r₁.Mirrors fates r₁' ∧
      (¬ o.isIo → ∃ r₂, r'.Ends r₂ o ∧ r₁.Mirrors fates r₂) := by
  induction hr with
  | first he => exact h.of_ends he
  | again traced _ he ih =>
    obtain ⟨n, r₁', hn, hm, -⟩ := ih
    have hstart : (Run.start _ _ traced).Mirrors fates r₁' := ⟨hm.machine, hm.inRange, hm.console⟩
    obtain ⟨k, r₂', hk, hm₂, hend⟩ := hstart.of_ends he
    refine ⟨n + k, r₂', by rw [iterate_add_of_running hn, hk], hm₂, fun hio => ?_⟩
    obtain ⟨r₃, he₃, hm₃⟩ := hend hio
    exact ⟨r₃, (ends_of_iterate hn).mpr he₃, hm₃⟩

/-- **Where the other one ends**, the run that is resumed does. -/
theorem exists_resumes (h : r.Mirrors fates r') (he : r'.Ends r₁ o) :
    ¬ o.isIo ∧ ∃ r₂, r.Resumes r₂ o := by
  obtain ⟨n, hn⟩ := he
  -- an instruction uses up one of the `n` that are left, a failure one item of the scripts
  induction hk : r.console.pending + n using Nat.strong_induction_on generalizing r r' n with
  | _ k ih =>
    have hlt' : r'.machine.tape.pointer < r'.machine.tape.length := h.machine ▸ h.inRange
    rcases h.console.step with ⟨m₁, c₁, c₁', hs, hs', hc, hle⟩ | ⟨i, f, c₁, hs, hc, hlt⟩ |
      ⟨o', hs, hs', hio⟩
    · cases n with
      | zero => cases hn
      | succ n =>
        rw [iterate_succ_of_running (advance_of_goes hlt' (h.machine ▸ hs'))] at hn
        obtain ⟨hio, r₂, hr⟩ := ih (c₁.pending + n) (by omega) (h.goOn hs hc) n hn (by simp)
        exact ⟨hio, r₂, hr.of_running (advance_of_goes h.inRange hs)⟩
    · have hend := (ends_of_ended (advance_of_stops h.inRange hs)).mpr ⟨rfl, rfl⟩
      have hstart : (Run.start r.machine c₁ false).Mirrors fates r' := ⟨h.machine, h.inRange, hc⟩
      obtain ⟨hio, r₂, hr⟩ := ih (c₁.pending + n) (by omega) hstart n hn rfl
      exact ⟨hio, r₂, .of_ends hend hr⟩
    · have hend := (ends_of_ended (advance_of_stops h.inRange hs)).mpr ⟨rfl, rfl⟩
      have hend' := (ends_of_ended (advance_of_stops hlt' (h.machine ▸ hs'))).mpr ⟨rfl, rfl⟩
      obtain ⟨-, rfl⟩ := Ends.unique ⟨n, hn⟩ hend'
      exact ⟨hio, _, .first hend⟩

end Mirrors

/-- **Failures of the channels lose nothing.** Take a run of a new machine that is resumed each time a
channel fails. Wherever it stops, the run without failures passes the same machine, with channels that
have given and taken the same; only bytes whose flush failed were written twice. It comes to an end
that is no failure of a channel if and only if the run without failures ends; then both end with the
same outcome, the same machine and such channels. -/
theorem resumes_faultless (p : Program) (hl : 1 ≤ l.tapeSize) (input : List Delivery)
    (writes : List WriteFate) (flushes : List FlushFate) (traced traced' : Bool) :
    let faulty := (Call.mk (.ofScripts input writes flushes) traced).start (.new p l)
    let free := (Call.mk (.ofScripts (faultless input) [] []) traced').start (.new p l)
    (∀ r o, faulty.Resumes r o → ∃ n r', free.iterate n = .running r' ∧ r.Mirrors flushes r') ∧
    (∀ r o, faulty.Resumes r o → ¬ o.isIo → ∃ r', free.Ends r' o ∧ r.Mirrors flushes r') ∧
    (∀ r' o, free.Ends r' o → ¬ o.isIo ∧ ∃ r, faulty.Resumes r o ∧ r.Mirrors flushes r') := by
  intro faulty free
  have h : faulty.Mirrors flushes free := .start p hl input writes flushes traced traced'
  have hends : ∀ r o, faulty.Resumes r o → ¬ o.isIo →
      ∃ r', free.Ends r' o ∧ r.Mirrors flushes r' := by
    intro r o hr
    obtain ⟨-, -, -, -, hend⟩ := h.of_resumes hr
    exact hend
  refine ⟨fun r o hr => ?_, hends, fun r' o he => ?_⟩
  · obtain ⟨n, r', hn, hm, -⟩ := h.of_resumes hr
    exact ⟨n, r', hn, hm⟩
  · obtain ⟨hio, r, hr⟩ := h.exists_resumes he
    obtain ⟨r₂, he₂, hm⟩ := hends r o hr hio
    obtain ⟨rfl, -⟩ := he.unique he₂
    exact ⟨hio, r, hr, hm⟩

/-- `,.` reads after a failure, is refused its first write and then writes 7 twice, since the first
flush fails. -/
theorem resumes_faultless_twice :
    let p : Program := .ofList [0x2c, 0x2e]
    let c : Console := .ofScripts [.fault ⟨.timedOut, none⟩, .byte 7] [.nothing]
      [.fault ⟨.brokenPipe, none⟩]
    ∃ r, ((Call.mk c true).start (.new p ⟨4, 10⟩)).Resumes r .done ∧
      r.console.written = [7, 7] := by
  intro p c
  obtain ⟨-, -, h⟩ := resumes_faultless p (show 1 ≤ (⟨4, 10⟩ : Limits).tapeSize by decide)
    c.input c.writeFates c.flushFates true true
  have hw : (match ((Call.mk (.ofScripts [.byte 7] [] []) true).start (.new p ⟨4, 10⟩)).iterate 3
      with
      | .ended r .done => r.console.written
      | _ => []) = [7] := by decide +kernel
  split at hw
  · rename_i r' hn
    obtain ⟨-, r, hr, hm⟩ := h r' .done ⟨3, hn⟩
    refine ⟨r, hr, ?_⟩
    have hflushed := hm.console.written.symm.trans hw
    have hrepeated := hm.console.repeated 0
    generalize r.console.written = bytes at hflushed hrepeated
    rcases bytes with _ | ⟨b, bytes⟩
    · cases hflushed
    · obtain rfl : bytes = [7] := by simpa [flushed, c, Console.ofScripts] using hflushed
      obtain rfl : 7 = b := by simpa using hrepeated b _ rfl rfl
      rfl
  · cases hw

end Run

end Brainfuck
