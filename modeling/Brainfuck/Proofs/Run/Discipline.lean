import Brainfuck.Proofs.Run.Calls
import Brainfuck.Proofs.Run.Trace

/-!
What a run reads and writes. All that an instruction can do with the channels is listed once, call by
call, together with what becomes of the machine (`Machine.Deals`); a run makes the calls of its
instructions one after another (`Run.Executes.replays`). So for a whole run

* the bytes accepted are the cells at its `.`, each flushed at once (`FlushedAtOnce`);
* the calls are as many as these bytes and its `,`, and the interruptions on the way, and one more if
  it is a call that ends the run;
* the run is the same on every input that gives out what it reads (`Run.Executes.withInput`).
-/

namespace Brainfuck

/-- A byte that is accepted is flushed by the next call, and nothing else is flushed. -/
inductive FlushedAtOnce : List Exchange → Prop
  | nil : FlushedAtOnce []
  | flushed (b : UInt8) (w : FlushFate) {es : List Exchange} : FlushedAtOnce es →
      FlushedAtOnce (.write b .accept :: .flush w :: es)
  | other {e : Exchange} {es : List Exchange} : e.accepted? = none → e.flushFate? = none →
      FlushedAtOnce es → FlushedAtOnce (e :: es)

/-- The calls of the next instruction of the machine `m` that are not made again, and what it comes
to. -/
inductive Machine.Deals (m : Machine) : List Exchange → Step → Prop
  | silent {s : Step} : (∀ b, m.next ≠ .emit b) → m.next ≠ .accept →
      (∀ i f c, s ≠ .stops (.failed (.io i f)) c) → Deals m [] s
  | written {b : UInt8} {c : Console} : m.next = .emit b →
      Deals m [.write b .accept, .flush .accept] (.goes m.forward c)
  | unflushed {b : UInt8} {f : Fault} {c : Console} : m.next = .emit b →
      Deals m [.write b .accept, .flush (.fault f)] (.stops (.failed (.io m.ip f)) c)
  | refused {b : UInt8} {w : WriteFate} {f : Fault} {c : Console} : m.next = .emit b →
      ¬ w.isInterruption → w.fault? = some f →
      Deals m [.write b w] (.stops (.failed (.io m.ip f)) c)
  | stored {b : UInt8} {c : Console} : m.next = .accept →
      Deals m [.read (.byte b)] (.goes (m.store b).forward c)
  | kept {c : Console} : m.next = .accept → Deals m [.read .eof] (.goes m.forward c)
  | unread {f : Fault} {c : Console} : m.next = .accept → ¬ f.isInterruption →
      Deals m [.read (.fault f)] (.stops (.failed (.io m.ip f)) c)

/-- The call that has failed. -/
def failedCall? (es : List Exchange) : Option Exchange :=
  es.find? fun e => e.failure?.isSome

/-- The number of reads that have failed. -/
def failedReads (es : List Exchange) : Nat :=
  match failedCall? es with
  | some (.read _) => 1
  | _ => 0

/-- The number of writes that have failed. -/
def failedWrites (es : List Exchange) : Nat :=
  match failedCall? es with
  | some (.write _ _) => 1
  | _ => 0

/-- The byte that was accepted if it is its flush that has failed. -/
def Machine.unflushed (m : Machine) (es : List Exchange) : List UInt8 :=
  match failedCall? es with
  | some (.flush _) => m.tape.get?.toList
  | _ => []

/-- The number of reads that are not made again. -/
def settledReads (es : List Exchange) : Nat :=
  (es.filterMap Exchange.delivery?).countP fun d => !d.isInterruption

/-- The number of writes that are not made again. -/
def settledWrites (es : List Exchange) : Nat :=
  (es.filterMap Exchange.writeFate?).countP fun w => !w.isInterruption

/-- The calls of an executed instruction. -/
def Deed.calls (d : Deed) : List Exchange := d.before.calls

/-- The cell that an executed `.` is to write. -/
def Deed.output? (d : Deed) : Option UInt8 :=
  if d.instr = .output then d.before.machine.tape.get? else none

/-- An executed `,` takes one item of the input that is no interruption, with the interruptions before
it. It stores a byte, and at an end it leaves the tape as it is. -/
def Deed.Accepts (d : Deed) : Prop :=
  ∃ used x, d.calls = (used ++ [x]).map .read ∧
    Gives .eof d.before.console.input (used ++ [x]) d.after.console.input ∧
    (∀ y ∈ used, y.isInterruption) ∧ ¬ x.isInterruption ∧
    match x with
    | .byte b => d.after.machine.tape = d.before.machine.tape.set b
    | .eof => d.after.machine.tape = d.before.machine.tape
    | .fault _ => False

variable {p : Program} {l : Limits} {m m' : Machine} {c c' c₁ : Console} {r r' last : Run}
  {ds : List Deed} {es es' used : List Exchange} {s : Step} {o : Outcome} {b : UInt8}

/-! ### Bytes that are flushed -/

namespace FlushedAtOnce

lemma append (h : FlushedAtOnce es) (h' : FlushedAtOnce es') : FlushedAtOnce (es ++ es') := by
  induction h with
  | nil => exact h'
  | flushed b w _ ih => exact .flushed b w ih
  | other ha hf _ ih => exact .other ha hf ih

lemma of_forall (h : ∀ e ∈ es, e.accepted? = none ∧ e.flushFate? = none) : FlushedAtOnce es := by
  induction es with
  | nil => exact .nil
  | cons e es ih =>
    obtain ⟨ha, hf⟩ := h e List.mem_cons_self
    exact .other ha hf (ih fun e' he' => h e' (List.mem_cons_of_mem _ he'))

lemma length_eq (h : FlushedAtOnce es) :
    (es.filterMap Exchange.flushFate?).length = (es.filterMap Exchange.accepted?).length := by
  induction h with
  | nil => rfl
  | @flushed b w es _ ih =>
    change (es.filterMap Exchange.flushFate?).length + 1 =
      (es.filterMap Exchange.accepted?).length + 1
    rw [ih]
  | other ha hf _ ih => rwa [List.filterMap_cons_none ha, List.filterMap_cons_none hf]

end FlushedAtOnce

/-! ### Calls that are made again -/

lemma settledReads_append (es es' : List Exchange) :
    settledReads (es ++ es') = settledReads es + settledReads es' := by
  simp only [settledReads, List.filterMap_append, List.countP_append]

lemma settledWrites_append (es es' : List Exchange) :
    settledWrites (es ++ es') = settledWrites es + settledWrites es' := by
  simp only [settledWrites, List.filterMap_append, List.countP_append]

/-- On fresh channels every read is one that is made again or one that is not. -/
lemma Console.Replays.reads_eq (h : c.Replays es c') (hfresh : c.reads = 0) :
    c'.reads = (c.input.take c'.reads).countP Delivery.isInterruption + settledReads es := by
  have hreads : c'.reads = (es.filterMap Exchange.delivery?).length := by
    rw [h.reads, hfresh, Nat.zero_add]
  rw [hreads]
  exact h.input.length_eq (by decide)

lemma Console.Replays.writes_eq (h : c.Replays es c') (hfresh : c.writes = 0) :
    c'.writes = (c.writeFates.take c'.writes).countP WriteFate.isInterruption +
      settledWrites es := by
  have hwrites : c'.writes = (es.filterMap Exchange.writeFate?).length := by
    rw [h.writes, hfresh, Nat.zero_add]
  rw [hwrites]
  exact h.writeFates.length_eq (by decide)

section Interrupted

variable (h : ∀ e ∈ used, e.isInterruption)
include h

lemma filterMap_accepted?_append_of_interrupted :
    (used ++ es).filterMap Exchange.accepted? = es.filterMap Exchange.accepted? := by
  have hnone : used.filterMap Exchange.accepted? = [] :=
    List.filterMap_eq_nil_iff.mpr fun e he => Exchange.accepted?_of_isInterruption (h e he)
  rw [List.filterMap_append, hnone, List.nil_append]

lemma flushedAtOnce_append_of_interrupted (hes : FlushedAtOnce es) : FlushedAtOnce (used ++ es) := by
  refine .append (.of_forall fun e he => ?_) hes
  have hint := h e he
  exact ⟨Exchange.accepted?_of_isInterruption hint, Exchange.flushFate?_of_isInterruption hint⟩

lemma failedCall?_append_of_interrupted : failedCall? (used ++ es) = failedCall? es := by
  have hnone : failedCall? used = none := by
    refine List.find?_eq_none.mpr fun e he => ?_
    simp [Exchange.failure?_of_isInterruption (h e he)]
  unfold failedCall? at hnone ⊢
  rw [List.find?_append, hnone, Option.none_or]

lemma settledReads_append_of_interrupted : settledReads (used ++ es) = settledReads es := by
  have hzero : settledReads used = 0 := by
    refine List.countP_eq_zero.mpr fun d hd => ?_
    obtain ⟨e, he, hed⟩ := List.mem_filterMap.mp hd
    have hint := h e he
    cases e with
    | read d' =>
      obtain rfl : d' = d := by simpa [Exchange.delivery?] using hed
      simpa [Exchange.isInterruption] using hint
    | write b w | flush w => cases hed
  rw [settledReads_append, hzero, Nat.zero_add]

lemma settledWrites_append_of_interrupted : settledWrites (used ++ es) = settledWrites es := by
  have hzero : settledWrites used = 0 := by
    refine List.countP_eq_zero.mpr fun w hw => ?_
    obtain ⟨e, he, hew⟩ := List.mem_filterMap.mp hw
    have hint := h e he
    cases e with
    | write b w' =>
      obtain rfl : w' = w := by simpa [Exchange.writeFate?] using hew
      simpa [Exchange.isInterruption] using hint
    | read d | flush w => cases hew
  rw [settledWrites_append, hzero, Nat.zero_add]

end Interrupted

/-! ### One instruction -/

/-- **The calls of an instruction** are some that are interrupted and then those that decide. -/
theorem Machine.deals (m : Machine) (c : Console) : ∃ used es,
    (∀ e ∈ used, e.isInterruption) ∧ m.calls c = used ++ es ∧ m.Deals es (m.step c) := by
  cases hn : m.next with
  | emit b =>
    have hint : ¬ (settledWrite c.writeFates).isInterruption :=
      not_interrupted_settled (by decide) c.writeFates
    refine ⟨(c.writeFates.takeWhile WriteFate.isInterruption).map (.write b),
      .write b (settledWrite c.writeFates) ::
        if settledWrite c.writeFates = .accept then [.flush (c.flushFates.headD .accept)] else [],
      fun e he => ?_, ?_, ?_⟩
    · obtain ⟨w, hw, rfl⟩ := List.mem_map.mp he
      exact List.mem_takeWhile_imp (p := WriteFate.isInterruption) hw
    · rw [calls_of_emit hn, writeCalls, attempts, List.map_append, List.append_assoc]
      rfl
    rw [step_of_emit hn, Console.put_eq]
    cases hw : settledWrite c.writeFates with
    | accept =>
      cases hf : c.flushFates.headD .accept with
      | accept => exact .written hn
      | fault f => exact .unflushed hn
    | nothing => exact .refused hn (by decide) rfl
    | fault f =>
      rw [hw] at hint
      exact .refused hn hint rfl
  | accept =>
    have hint : ¬ (settled Delivery.isInterruption .eof c.input).isInterruption :=
      not_interrupted_settled (by decide) c.input
    refine ⟨(c.input.takeWhile Delivery.isInterruption).map .read,
      [.read (settled Delivery.isInterruption .eof c.input)], fun e he => ?_, ?_, ?_⟩
    · obtain ⟨d, hd, rfl⟩ := List.mem_map.mp he
      exact List.mem_takeWhile_imp (p := Delivery.isInterruption) hd
    · rw [calls_of_accept hn, readCalls, attempts, List.map_append]
      rfl
    rw [step_of_accept hn, Console.take_eq]
    cases hd : settled Delivery.isInterruption .eof c.input with
    | byte b => exact .stored hn
    | eof => exact .kept hn
    | fault f =>
      rw [hd] at hint
      exact .unread hn hint
  | _ =>
    refine ⟨[], [], by simp, calls_of_silent (by simp [hn]) (by simp [hn]) c,
      .silent (by simp [hn]) (by simp [hn]) fun i f c' hs => ?_⟩
    -- nothing fails as a channel does without a call
    have hc := hn ▸ m.chooses_next
    rw [step, hn] at hs
    cases hs <;> cases hc

namespace Machine.Deals

lemma flushedAtOnce (h : m.Deals es s) : FlushedAtOnce es := by
  cases h with
  | silent => exact .nil
  | written | unflushed => exact .flushed _ _ .nil
  | @refused _ w _ _ _ _ hf =>
    refine .other ?_ rfl .nil
    cases w with
    | accept => cases hf
    | nothing | fault f => rfl
  | stored | kept | unread => exact .other rfl rfl .nil

/-- What is accepted and counted of an instruction that ends a run. -/
lemma of_stops (h : m.Deals es (.stops o c)) :
    es.filterMap Exchange.accepted? = m.unflushed es ∧ settledReads es = failedReads es ∧
      settledWrites es = (es.filterMap Exchange.accepted?).length + failedWrites es ∧
      ∀ i f, o = .failed (.io i f) ↔
        i = m.ip ∧ (failedCall? es).bind Exchange.failure? = some f := by
  unfold Machine.unflushed failedReads failedWrites
  have hio {f f' : Fault} {i : Nat} : Outcome.failed (.io m.ip f) = .failed (.io i f') ↔
      i = m.ip ∧ some f = some f' := by
    simp [eq_comm]
  cases h with
  | silent hw hr hio =>
    refine ⟨rfl, rfl, rfl, fun i f => ⟨fun ho => ?_, fun hf => ?_⟩⟩
    · exact absurd (ho ▸ rfl) (hio i f c)
    · cases hf.2
  | @unflushed b f _ hn =>
    rw [(of_next_emit hn).2]
    exact ⟨rfl, rfl, rfl, fun i f' => hio⟩
  | @refused b w f _ hn hint hf =>
    have hfailed : failedCall? [.write b w] = some (.write b w) := by
      simp [failedCall?, Exchange.failure?, hint, hf]
    have hfailure : (Exchange.write b w).failure? = some f := (if_neg hint).trans hf
    have hcount : settledWrites [.write b w] = 1 := by
      simp [settledWrites, Exchange.writeFate?, hint]
    have haccepted : [Exchange.write b w].filterMap Exchange.accepted? = [] := by
      cases w with
      | accept => cases hf
      | nothing | fault f' => rfl
    rw [hfailed, haccepted, hcount, Option.bind_some, hfailure]
    exact ⟨rfl, rfl, rfl, fun i f' => hio⟩
  | @unread f _ hn hint =>
    have hfailed : failedCall? [.read (.fault f)] = some (.read (.fault f)) := by
      simp [failedCall?, Exchange.failure?, hint]
    have hfailure : (Exchange.read (.fault f)).failure? = some f := if_neg hint
    have hcount : settledReads [.read (.fault f)] = 1 := by
      simp [settledReads, Exchange.delivery?, Delivery.isInterruption, hint]
    rw [hfailed, hcount, Option.bind_some, hfailure]
    exact ⟨rfl, rfl, rfl, fun i f' => hio⟩

/-- What is accepted and counted of an instruction that is executed. -/
lemma of_goes {a : Instr} (h : m.Deals es (.goes m' c)) (hm : m.Moves m')
    (ha : m.program.instr? m.ip = some a) :
    es.filterMap Exchange.accepted? = (if a = .output then m.tape.get? else none).toList ∧
      settledReads es = (if a = .input then 1 else 0) ∧
      settledWrites es = (es.filterMap Exchange.accepted?).length := by
  have hgoes : m.next.goesOn := by
    cases hm with
    | act hn hg => rwa [hn]
    | store b hn => rw [hn]; rfl
  have hnext := next_of_instr ha
  cases h with
  | silent hw hr =>
    have hinput : a ≠ .input := by
      rintro rfl
      exact hr hnext
    have houtput : a ≠ .output := by
      rintro rfl
      rw [hnext] at hgoes
      simp only [actionOf] at hgoes hnext
      cases hcell : m.tape.get? with
      | some b => exact hw b (by rw [hnext, hcell])
      | none =>
        rw [hcell] at hgoes
        cases hgoes
    rw [if_neg houtput, if_neg hinput]
    exact ⟨rfl, rfl, rfl⟩
  | written hn =>
    obtain ⟨ho, hcell⟩ := of_next_emit hn
    obtain rfl := Option.some.inj (ha.symm.trans ho)
    rw [if_pos rfl, hcell]
    exact ⟨rfl, rfl, rfl⟩
  | stored hn | kept hn =>
    obtain rfl := Option.some.inj (ha.symm.trans (instr?_of_next_accept hn))
    exact ⟨rfl, rfl, rfl⟩

end Machine.Deals

namespace Deed

lemma step_eq (d : Deed) :
    d.before.machine.step d.before.console = .goes d.after.machine d.after.console :=
  (Run.step_of_advance_running d.pointer_lt d.advance).1

lemma replays (d : Deed) : d.before.console.Replays d.calls d.after.console := by
  have hcalls := d.before.machine.replays_calls d.before.console
  rwa [d.step_eq] at hcalls

/-- **The calls of an executed instruction.** -/
theorem tally (d : Deed) : d.calls.filterMap Exchange.accepted? = d.output?.toList ∧
    settledReads d.calls = (if d.instr = .input then 1 else 0) ∧
    settledWrites d.calls = (d.calls.filterMap Exchange.accepted?).length ∧
    FlushedAtOnce d.calls := by
  obtain ⟨used, es, hused, hcalls, hdeals⟩ := d.before.machine.deals d.before.console
  have hcalls : d.calls = used ++ es := hcalls
  have hflushed := flushedAtOnce_append_of_interrupted hused hdeals.flushedAtOnce
  rw [d.step_eq] at hdeals
  obtain ⟨haccepted, hreads, hwrites⟩ := hdeals.of_goes d.moves d.instr?_eq
  rw [hcalls, filterMap_accepted?_append_of_interrupted hused,
    settledReads_append_of_interrupted hused, settledWrites_append_of_interrupted hused]
  exact ⟨haccepted, hreads, hwrites, hflushed⟩

theorem accepts (d : Deed) (h : d.instr = .input) : d.Accepts := by
  have hinstr := d.instr?_eq
  rw [h] at hinstr
  have hnext : d.before.machine.next = .accept := Machine.next_of_instr hinstr
  have hcalls : d.calls = readCalls d.before.console.input := Machine.calls_of_accept hnext _
  have hgives := d.replays.input
  rw [hcalls, Console.filterMap_delivery?_readCalls] at hgives
  refine ⟨_, _, hcalls, hgives, fun y hy => List.mem_takeWhile_imp hy,
    not_interrupted_settled (by decide) _, ?_⟩
  have hstep := d.step_eq
  rw [Machine.step_of_accept hnext, Console.take_eq] at hstep
  cases hx : settled Delivery.isInterruption .eof d.before.console.input with
  | byte b =>
    rw [hx] at hstep
    obtain ⟨hmachine, -⟩ := Step.goes.inj hstep
    rw [← hmachine]
    rfl
  | eof =>
    rw [hx] at hstep
    obtain ⟨hmachine, -⟩ := Step.goes.inj hstep
    rw [← hmachine]
    rfl
  | fault f =>
    rw [hx] at hstep
    cases hstep

end Deed

/-- What is accepted and counted of executed instructions. -/
lemma tally_flatMap (ds : List Deed) :
    (ds.flatMap Deed.calls).filterMap Exchange.accepted? = ds.filterMap Deed.output? ∧
      settledReads (ds.flatMap Deed.calls) = ds.countP (·.instr = .input) ∧
      settledWrites (ds.flatMap Deed.calls) =
        ((ds.flatMap Deed.calls).filterMap Exchange.accepted?).length ∧
      FlushedAtOnce (ds.flatMap Deed.calls) := by
  induction ds with
  | nil => exact ⟨rfl, rfl, rfl, .nil⟩
  | cons d ds ih =>
    obtain ⟨haccepted, hreads, hwrites, hflushed⟩ := d.tally
    obtain ⟨haccepted', hreads', hwrites', hflushed'⟩ := ih
    rw [List.flatMap_cons, List.filterMap_append, settledReads_append, settledWrites_append,
      List.length_append, hwrites, hwrites', haccepted, haccepted', hreads, hreads',
      List.countP_cons]
    refine ⟨?_, ?_, rfl, hflushed.append hflushed'⟩
    · cases ho : d.output? with
      | none => rw [List.filterMap_cons_none ho]; rfl
      | some b => rw [List.filterMap_cons_some ho]; rfl
    · simp [Nat.add_comm]

/-! ### Runs -/

namespace Run

/-- **The calls of a run** are those of its instructions. -/
theorem Executes.replays (h : r.Executes ds r') :
    r.console.Replays (ds.flatMap Deed.calls) r'.console := by
  induction h with
  | nil r => exact .nil _
  | comment ha hb _ ih =>
    obtain rfl := eq_of_comment hb ha
    exact ih
  | deed d _ ih => exact d.replays.append ih

/-- What is accepted and counted of the instruction that ends a run. -/
lemma tally_of_stops (r : Run) (h : r.machine.step r.console = .stops o c) :
    r.calls.filterMap Exchange.accepted? = r.machine.unflushed r.calls ∧
      settledReads r.calls = failedReads r.calls ∧
      settledWrites r.calls =
        (r.calls.filterMap Exchange.accepted?).length + failedWrites r.calls ∧
      FlushedAtOnce r.calls ∧ ∀ i f, o = .failed (.io i f) ↔
        i = r.machine.ip ∧ (failedCall? r.calls).bind Exchange.failure? = some f := by
  obtain ⟨used, es, hused, hcalls, hdeals⟩ := r.machine.deals r.console
  have hcalls : r.calls = used ++ es := hcalls
  have hflushed := flushedAtOnce_append_of_interrupted hused hdeals.flushedAtOnce
  rw [h] at hdeals
  obtain ⟨haccepted, hreads, hwrites, hfailed⟩ := hdeals.of_stops
  rw [hcalls, filterMap_accepted?_append_of_interrupted hused,
    settledReads_append_of_interrupted hused, settledWrites_append_of_interrupted hused]
  unfold Machine.unflushed at haccepted ⊢
  unfold failedReads at hreads ⊢
  unfold failedWrites at hwrites ⊢
  rw [failedCall?_append_of_interrupted hused]
  exact ⟨haccepted, hreads, hwrites, hflushed, hfailed⟩

/-! ### Runs with other channels -/

/-- The run with another script of its input. -/
def withInput (input : List Delivery) (r : Run) : Run :=
  r.withConsole { r.console with input }

lemma calls_of_comment (hb : r.machine.program.instr? r.machine.ip = none) : r.calls = [] := by
  refine Machine.calls_of_silent (fun b hn => ?_) (fun hn => ?_) _
  · rw [(Machine.of_next_emit hn).1] at hb
    cases hb
  · rw [Machine.instr?_of_next_accept hn] at hb
    cases hb

/-- An instruction with an input that gives out what it reads. -/
lemma advance_withInput {input rest : List Delivery}
    (hlt : r.machine.tape.pointer < r.machine.tape.length)
    (h : r.console.Replays r.calls c₁)
    (hgives : Gives .eof input (r.calls.filterMap Exchange.delivery?) rest) :
    (r.withInput input).advance = r.advance.map (withConsole { c₁ with input := rest }) id ∧
      (r.withInput input).calls = r.calls := by
  have hreplays : Console.Replays { r.console with input } r.calls { c₁ with input := rest } :=
    { h with input := hgives }
  exact ⟨advance_of_replays hlt hreplays, Machine.calls_of_replays hreplays⟩

/-- **A run with another input** that gives out what it reads executes the same instructions, and these
make the same calls. -/
theorem Executes.withInput {input rest : List Delivery}
    (hlt : r.machine.tape.pointer < r.machine.tape.length) (h : r.Executes ds r')
    (hgives : Gives .eof input ((ds.flatMap Deed.calls).filterMap Exchange.delivery?) rest) :
    ∃ ds', (r.withInput input).Executes ds' (r'.withInput rest) ∧
      ds'.map Deed.entry = ds.map Deed.entry ∧ ds'.map Deed.calls = ds.map Deed.calls := by
  induction h generalizing input with
  | nil r =>
    cases hgives
    exact ⟨[], .nil _, rfl, rfl⟩
  | @comment r r₁ r' ds ha hb _ ih =>
    have hlt₁ := (moves_of_advance ha).pointer_lt hlt
    obtain ⟨ds', hds', hentries, hcalls⟩ := ih hlt₁ hgives
    have hsilent := calls_of_comment hb
    have hreplays : r.console.Replays r.calls r.console := by
      rw [hsilent]
      exact .nil _
    have hkeep : Gives .eof input (r.calls.filterMap Exchange.delivery?) input := by
      rw [hsilent]
      exact .nil _
    obtain ⟨hadvance, -⟩ := advance_withInput hlt hreplays hkeep
    rw [ha] at hadvance
    obtain rfl := eq_of_comment hb ha
    exact ⟨ds', .comment hadvance hb hds', hentries, hcalls⟩
  | @deed d r' ds _ ih =>
    rw [List.flatMap_cons, List.filterMap_append] at hgives
    obtain ⟨mid, hmid, hrest⟩ := hgives.of_append
    obtain ⟨ds', hds', hentries, hcalls⟩ := ih (d.moves.pointer_lt hlt) hrest
    obtain ⟨hadvance, hcalls₁⟩ := advance_withInput hlt d.replays hmid
    rw [d.advance] at hadvance
    let d' : Deed := ⟨d.before.withInput input, d.after.withInput mid, d.instr, d.cell, d.pointer_lt,
      hadvance, d.instr?_eq, d.get?_eq⟩
    refine ⟨d' :: ds', .deed d' hds', ?_, ?_⟩
    · rw [List.map_cons, List.map_cons, hentries]
      rfl
    · rw [List.map_cons, List.map_cons, hcalls]
      exact congrArg (· :: _) hcalls₁

/-! ### Whole runs -/

/-- What the run `first` does with fresh channels: it executes the instructions `ds` and comes to
`last`, whose next instruction ends it as `r`. -/
structure Disciplined (first : Run) (ds : List Deed) (last r : Run) (o : Outcome) : Prop where
  executes : first.Executes ds last
  ends : last.advance = .ended r o
  /-- A channel has failed if a call of the last instruction has. -/
  failed : ∀ i f, o = .failed (.io i f) ↔
    i = last.machine.ip ∧ (failedCall? last.calls).bind Exchange.failure? = some f
  /-- The scripts answer the calls of each instruction, which lead to the next one. -/
  replaysEach : (∀ d ∈ ds, d.before.console.Replays d.calls d.after.console) ∧
    last.console.Replays last.calls r.console
  replays : first.console.Replays (ds.flatMap Deed.calls ++ last.calls) r.console
  flushedAtOnce : FlushedAtOnce (ds.flatMap Deed.calls ++ last.calls)
  /-- The bytes accepted are the cells at the `.`, a last one included whose flush has failed. -/
  written : r.console.written =
    ds.filterMap Deed.output? ++ last.machine.unflushed last.calls
  flushes : r.console.flushes = r.console.written.length
  writes : r.console.writes = r.console.written.length +
    (first.console.writeFates.take r.console.writes).countP WriteFate.isInterruption +
    failedWrites last.calls
  reads : r.console.reads = ds.countP (·.instr = .input) +
    (first.console.input.take r.console.reads).countP Delivery.isInterruption +
    failedReads last.calls
  accepts : ∀ d ∈ ds, d.instr = .input → d.Accepts
  /-- The run has taken one item of the input for each read, and no more. -/
  input : r.console.input = first.console.input.drop r.console.reads
  /-- It is the same run on every input that begins with these items. -/
  otherInput : ∀ input : List Delivery,
    (∀ i < r.console.reads, input.getD i .eof = first.console.input.getD i .eof) →
    (first.withInput input).Ends (r.withInput (input.drop r.console.reads)) o ∧
    ∃ ds' last', (first.withInput input).Executes ds' last' ∧
      last'.advance = .ended (r.withInput (input.drop r.console.reads)) o ∧
      ds'.map Deed.entry = ds.map Deed.entry ∧ ds'.map Deed.calls = ds.map Deed.calls ∧
      last'.calls = last.calls

end Run

/-- **The discipline of input and output.** A run that ends, within limits that allow a cell and on channels
of any behaviour, makes its calls instruction by instruction: a `,` reads, and again after an interruption;
a `.` writes its cell, and again after an interruption, and flushes it as soon as it is taken; no other
instruction makes a call. So what is written are the cells at the `.`, with one flush for each byte of it,
and the numbers of the calls follow from that and from the interruptions. The run has taken no more of its
input than it has read, and on every input that begins with that it is the same run. -/
theorem Reachable.disciplined (hm : Reachable p l m) (hl : 1 ≤ l.tapeSize) (input : List Delivery)
    (writes : List WriteFate) (flushes : List FlushFate) (traced : Bool)
    (he : ((Call.mk (.ofScripts input writes flushes) traced).start m).Ends r o) :
    ∃ ds last,
      ((Call.mk (.ofScripts input writes flushes) traced).start m).Disciplined ds last r o := by
  have hlt := hm.sound.pointer_lt hl
  obtain ⟨ds, last, hds, hlast⟩ := he.exists_executes hlt
  have hlt' := hds.pointer_lt hlt
  obtain ⟨c', hstep, hr⟩ := Run.step_of_advance_ended hlt' hlast
  -- the calls of all instructions, then those of the last one
  have hlastReplays : last.console.Replays last.calls r.console := by
    have hcalls := last.machine.replays_calls last.console
    rw [hstep] at hcalls
    rw [hr]
    exact hcalls
  have hreplays := hds.replays.append hlastReplays
  obtain ⟨haccepted, hreads, hwrites, hflushed⟩ := tally_flatMap ds
  obtain ⟨haccepted', hreads', hwrites', hflushed', hfailed⟩ := last.tally_of_stops hstep
  have hall := hflushed.append hflushed'
  have hwritten : r.console.written = (ds.flatMap Deed.calls ++ last.calls).filterMap
      Exchange.accepted? := hreplays.written
  have hlength : r.console.reads =
      ((ds.flatMap Deed.calls ++ last.calls).filterMap Exchange.delivery?).length :=
    hreplays.reads.trans (Nat.zero_add _)
  refine ⟨ds, last, ?_⟩
  constructor
  case executes => exact hds
  case ends => exact hlast
  case failed => exact hfailed
  case replaysEach => exact ⟨fun d _ => d.replays, hlastReplays⟩
  case replays => exact hreplays
  case flushedAtOnce => exact hall
  case accepts => exact fun d _ => d.accepts
  case written => rw [hwritten, List.filterMap_append, haccepted, haccepted']
  case flushes =>
    rw [hwritten, ← hall.length_eq, hreplays.flushes]
    exact Nat.zero_add _
  case writes =>
    have hcount := hreplays.writes_eq rfl
    rw [settledWrites_append, hwrites, hwrites'] at hcount
    rw [hwritten, List.filterMap_append, List.length_append]
    omega
  case reads =>
    have hcount := hreplays.reads_eq rfl
    rw [settledReads_append, hreads, hreads'] at hcount
    omega
  case input =>
    rw [hlength]
    exact hreplays.input.rest_eq
  case otherInput =>
    intro input' hsame
    rw [hlength] at hsame ⊢
    have hgives := hreplays.input.of_getD hsame
    rw [List.filterMap_append] at hgives ⊢
    obtain ⟨mid, hmid, hrest⟩ := hgives.of_append
    obtain ⟨ds', hds', hentries, hcalls⟩ := hds.withInput hlt hmid
    obtain ⟨hadvance, hlastCalls⟩ := Run.advance_withInput hlt' hlastReplays hrest
    rw [hlast] at hadvance
    exact ⟨hds'.ends hadvance, ds', last.withInput mid, hds', hadvance, hentries, hcalls, hlastCalls⟩

/-- The `,` of `,..` reads again after an interruption, and so does its first `.` write; the second `.`
fails to flush the byte that it has written. -/
theorem Reachable.disciplined_unflushed :
    let p : Program := .ofList [0x2c, 0x2e, 0x2e]
    let interrupted : Fault := ⟨.interrupted, none⟩
    let first := (Call.mk (.ofScripts [.fault interrupted, .byte 7, .byte 9] [.fault interrupted]
      [.accept, .fault ⟨.brokenPipe, none⟩]) true).start (.new p ⟨1, 0⟩)
    let o : Outcome := .failed (.io 2 ⟨.brokenPipe, none⟩)
    ∃ r ds last, first.Ends r o ∧ first.Disciplined ds last r o ∧ r.console.written = [7, 7] ∧
      (r.console.reads, r.console.writes, r.console.flushes) = (2, 3, 2) := by
  intro p interrupted first o
  have hended : (match first.iterate 3 with
      | .ended r o => (o, r.console.written, r.console.reads, r.console.writes, r.console.flushes)
      | .running _ => (.done, [], 0, 0, 0)) = (o, [7, 7], 2, 3, 2) := by
    decide +kernel
  split at hended
  · rename_i r o' hn
    obtain ⟨rfl, hrest⟩ := Prod.mk.inj hended
    obtain ⟨hwritten, hcounts⟩ := Prod.mk.inj hrest
    obtain ⟨ds, last, hdisciplined⟩ := Reachable.disciplined (.new (p := p) (l := ⟨1, 0⟩)) (by decide)
      [.fault interrupted, .byte 7, .byte 9] [.fault interrupted]
      [.accept, .fault ⟨.brokenPipe, none⟩] true ⟨3, hn⟩
    exact ⟨r, ds, last, ⟨3, hn⟩, hdisciplined, hwritten, hcounts⟩
  · simp [o] at hended

end Brainfuck
