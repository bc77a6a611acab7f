import Brainfuck.Proofs.Run.Resumption
import Brainfuck.Proofs.Run.Scripts

/-!
The calls that an instruction makes, one by one (`Exchange`), with what comes of each. A `.` writes its
byte until the write is not interrupted, and flushes at once if the byte was taken; a `,` reads until
the read is not interrupted; nothing else makes a call (`Machine.calls`).

`Console.Replays` says that the scripts answer the calls of a list one after another. The calls of an
instruction lead the channels to where the instruction leaves them (`Machine.replays_calls`), and the
channels matter for an instruction only by their answers to them (`Machine.step_of_replays`).
-/

namespace Brainfuck

/-- Whether a read call is interrupted. -/
def Delivery.isInterruption : Delivery → Bool
  | .fault f => f.isInterruption
  | .byte _ | .eof => false

/-- Whether a write call is interrupted. -/
def WriteFate.isInterruption : WriteFate → Bool
  | .fault f => f.isInterruption
  | .accept | .nothing => false

/-- What a `,` makes of a delivery that is no interruption. -/
def Delivery.answer : Delivery → Except Fault (Option UInt8)
  | .byte b => .ok (some b)
  | .eof => .ok none
  | .fault f => .error f

/-- The fault of a write call that takes no byte. -/
def WriteFate.fault? : WriteFate → Option Fault
  | .accept => none
  | .nothing => some .nothingWritten
  | .fault f => some f

/-- The fault of a flush call. -/
def FlushFate.fault? : FlushFate → Option Fault
  | .accept => none
  | .fault f => some f

/-- A call of a channel, with what comes of it. -/
inductive Exchange where
  | read (delivery : Delivery)
  | write (b : UInt8) (fate : WriteFate)
  | flush (fate : FlushFate)
  deriving DecidableEq

namespace Exchange

def delivery? : Exchange → Option Delivery
  | .read d => some d
  | _ => none

def writeFate? : Exchange → Option WriteFate
  | .write _ w => some w
  | _ => none

def flushFate? : Exchange → Option FlushFate
  | .flush w => some w
  | _ => none

/-- The byte that a write has put out. -/
def accepted? : Exchange → Option UInt8
  | .write b .accept => some b
  | _ => none

/-- Whether a call is interrupted and made again. A flush is not. -/
def isInterruption : Exchange → Bool
  | .read d => d.isInterruption
  | .write _ w => w.isInterruption
  | .flush _ => false

/-- The fault of a call that is not made again. -/
def failure? : Exchange → Option Fault
  | .read (.fault f) => if f.isInterruption then none else some f
  | .write _ w => if w.isInterruption then none else w.fault?
  | .flush w => w.fault?
  | _ => none

lemma accepted?_of_isInterruption {e : Exchange} (he : e.isInterruption) : e.accepted? = none := by
  cases e with
  | read d | flush w => rfl
  | write b w =>
    cases w with
    | accept => cases he
    | nothing | fault f => rfl

lemma flushFate?_of_isInterruption {e : Exchange} (he : e.isInterruption) : e.flushFate? = none := by
  cases e with
  | read d | write b w => rfl
  | flush w => cases he

lemma failure?_of_isInterruption {e : Exchange} (he : e.isInterruption) : e.failure? = none := by
  cases e with
  | read d =>
    cases d with
    | byte b | eof => rfl
    | fault f => exact if_pos he
  | write b w => exact if_pos he
  | flush w => cases he

end Exchange

/-- The calls of a `,`. -/
def readCalls (input : List Delivery) : List Exchange :=
  (attempts Delivery.isInterruption .eof input).map .read

/-- The fate of the write of a `.` that is not interrupted. -/
def settledWrite (fates : List WriteFate) : WriteFate :=
  settled WriteFate.isInterruption .accept fates

/-- The calls of a `.` that writes `b`. -/
def writeCalls (b : UInt8) (fates : List WriteFate) (flushes : List FlushFate) : List Exchange :=
  (attempts WriteFate.isInterruption .accept fates).map (.write b) ++
    if settledWrite fates = .accept then [.flush (flushes.headD .accept)] else []

/-- The calls that a machine makes for its next instruction. -/
def Machine.calls (m : Machine) (c : Console) : List Exchange :=
  match m.next with
  | .emit b => writeCalls b c.writeFates c.flushFates
  | .accept => readCalls c.input
  | _ => []

/-- The scripts of `c` answer the calls one after another, and this leads to `c'`. -/
structure Console.Replays (c : Console) (es : List Exchange) (c' : Console) : Prop where
  input : Gives .eof c.input (es.filterMap Exchange.delivery?) c'.input
  writeFates : Gives .accept c.writeFates (es.filterMap Exchange.writeFate?) c'.writeFates
  flushFates : Gives .accept c.flushFates (es.filterMap Exchange.flushFate?) c'.flushFates
  written : c'.written = c.written ++ es.filterMap Exchange.accepted?
  reads : c'.reads = c.reads + (es.filterMap Exchange.delivery?).length
  writes : c'.writes = c.writes + (es.filterMap Exchange.writeFate?).length
  flushes : c'.flushes = c.flushes + (es.filterMap Exchange.flushFate?).length

variable {c c' c₁ c₂ : Console} {es es' : List Exchange} {b : UInt8}

namespace Console

/-! ### Calls in a row -/

namespace Replays

lemma nil (c : Console) : c.Replays [] c where
  input := .nil _
  writeFates := .nil _
  flushFates := .nil _
  written := (List.append_nil _).symm
  reads := rfl
  writes := rfl
  flushes := rfl

lemma append (h : c.Replays es c₁) (h' : c₁.Replays es' c₂) : c.Replays (es ++ es') c₂ where
  input := by
    rw [List.filterMap_append]
    exact h.input.append h'.input
  writeFates := by
    rw [List.filterMap_append]
    exact h.writeFates.append h'.writeFates
  flushFates := by
    rw [List.filterMap_append]
    exact h.flushFates.append h'.flushFates
  written := by rw [h'.written, h.written, List.filterMap_append, List.append_assoc]
  reads := by rw [h'.reads, h.reads, List.filterMap_append, List.length_append, Nat.add_assoc]
  writes := by rw [h'.writes, h.writes, List.filterMap_append, List.length_append, Nat.add_assoc]
  flushes := by
    rw [h'.flushes, h.flushes, List.filterMap_append, List.length_append, Nat.add_assoc]

/-- The calls say where they lead to. -/
lemma unique (h₁ : c.Replays es c₁) (h₂ : c.Replays es c₂) : c₁ = c₂ := by
  have hinput := h₁.input.rest_eq.trans h₂.input.rest_eq.symm
  have hwriteFates := h₁.writeFates.rest_eq.trans h₂.writeFates.rest_eq.symm
  have hflushFates := h₁.flushFates.rest_eq.trans h₂.flushFates.rest_eq.symm
  have hwritten := h₁.written.trans h₂.written.symm
  have hreads := h₁.reads.trans h₂.reads.symm
  have hwrites := h₁.writes.trans h₂.writes.symm
  have hflushes := h₁.flushes.trans h₂.flushes.symm
  have houtput : c₁.output = c₂.output := ByteArray.ext (Array.toList_inj.mp hwritten)
  obtain ⟨input, writeFates, flushFates, output, reads, writes, flushes⟩ := c₁
  simp only at hinput hwriteFates hflushFates houtput hreads hwrites hflushes
  rw [hinput, hwriteFates, hflushFates, houtput, hreads, hwrites, hflushes]

lemma eq_of_nil (h : c.Replays [] c') : c' = c := h.unique (nil c)

end Replays

/-! ### A read and its answer -/

lemma take_go_eq (input : List Delivery) (n : Nat) : take.go input n =
    ((settled Delivery.isInterruption .eof input).answer,
      (input.dropWhile Delivery.isInterruption).tail,
      n + (attempts Delivery.isInterruption .eof input).length) := by
  induction input generalizing n with
  | nil => rfl
  | cons d input ih =>
    cases d with
    | byte b | eof => rfl
    | fault f =>
      rw [take.go]
      by_cases hf : f.isInterruption
      · have hd : (Delivery.fault f).isInterruption = true := hf
        simp [ih, hf, hd, settled, attempts, Nat.add_comm, Nat.add_left_comm]
      · have hd : ¬ (Delivery.fault f).isInterruption := hf
        simp [hf, hd, settled, attempts, Delivery.answer]

lemma take_eq (c : Console) : c.take = ((settled Delivery.isInterruption .eof c.input).answer,
    { c with
      input := (c.input.dropWhile Delivery.isInterruption).tail
      reads := c.reads + (attempts Delivery.isInterruption .eof c.input).length }) := by
  obtain ⟨input, writeFates, flushFates, output, reads, writes, flushes⟩ := c
  rw [take, take_go_eq]

@[simp] lemma filterMap_delivery?_readCalls (input : List Delivery) :
    (readCalls input).filterMap Exchange.delivery? = attempts Delivery.isInterruption .eof input := by
  simp [readCalls, List.filterMap_map, Function.comp_def, Exchange.delivery?]

lemma filterMap_readCalls {β : Type} {f : Exchange → Option β} (hf : ∀ d, f (.read d) = none)
    (input : List Delivery) : (readCalls input).filterMap f = [] := by
  simp [readCalls, hf]

theorem replays_take (c : Console) : c.Replays (readCalls c.input) c.take.2 := by
  have hwriteFates := filterMap_readCalls (f := Exchange.writeFate?) (fun _ => rfl) c.input
  have hflushFates := filterMap_readCalls (f := Exchange.flushFate?) (fun _ => rfl) c.input
  have haccepted := filterMap_readCalls (f := Exchange.accepted?) (fun _ => rfl) c.input
  rw [take_eq]
  constructor
  case input =>
    rw [filterMap_delivery?_readCalls]
    exact gives_attempts Delivery.isInterruption .eof c.input
  case reads => rw [filterMap_delivery?_readCalls]
  case written =>
    rw [haccepted, List.append_nil]
    rfl
  case writeFates =>
    rw [hwriteFates]
    exact .nil _
  case writes => rw [hwriteFates, List.length_nil, Nat.add_zero]
  case flushFates =>
    rw [hflushFates]
    exact .nil _
  case flushes => rw [hflushFates, List.length_nil, Nat.add_zero]

/-- Channels that answer the calls of a `,` have it make the same calls. -/
lemma attempts_of_replays_readCalls {input : List Delivery} (h : c.Replays (readCalls input) c₁) :
    attempts Delivery.isInterruption .eof c.input = attempts Delivery.isInterruption .eof input := by
  have hgives := h.input
  rw [filterMap_delivery?_readCalls] at hgives
  exact hgives.attempts_eq (by decide)

theorem take_of_replays (h : c'.Replays (readCalls c.input) c₁) : c'.take = (c.take.1, c₁) := by
  have hattempts := attempts_of_replays_readCalls h
  rw [readCalls, ← hattempts] at h
  have hsettled := settled_eq_of_attempts_eq hattempts
  rw [h.unique c'.replays_take, take_eq, take_eq, hsettled]

/-! ### A write, its flush and their answer -/

lemma settleWrite_eq (fates : List WriteFate) (n : Nat) : settleWrite fates n =
    (match (settledWrite fates).fault? with
      | some f => .error f
      | none => .ok (), (fates.dropWhile WriteFate.isInterruption).tail,
      n + (attempts WriteFate.isInterruption .accept fates).length) := by
  induction fates generalizing n with
  | nil => rfl
  | cons w fates ih =>
    cases w with
    | accept | nothing => rfl
    | fault f =>
      rw [settleWrite]
      by_cases hf : f.isInterruption
      · have hw : (WriteFate.fault f).isInterruption = true := hf
        simp [ih, hf, hw, settledWrite, settled, attempts, Nat.add_comm, Nat.add_left_comm]
      · have hw : ¬ (WriteFate.fault f).isInterruption := hf
        simp [hf, hw, settledWrite, settled, attempts, WriteFate.fault?]

/-- The channels after the writes of a `.`, the last of which takes no byte. -/
def afterWrites (c : Console) : Console :=
  { c with
    writeFates := (c.writeFates.dropWhile WriteFate.isInterruption).tail
    writes := c.writes + (attempts WriteFate.isInterruption .accept c.writeFates).length }

lemma put_eq (b : UInt8) (c : Console) : c.put b =
    match (settledWrite c.writeFates).fault? with
    | some f => (.error f, c.afterWrites)
    | none =>
      (match (c.flushFates.headD .accept).fault? with
        | some f => .error f
        | none => .ok (), c.push b c.afterWrites.writeFates c.afterWrites.writes) := by
  obtain ⟨input, writeFates, flushFates, output, reads, writes, flushes⟩ := c
  rw [put, settleWrite_eq]
  cases (settledWrite writeFates).fault? with
  | some f => rfl
  | none =>
    rcases flushFates with _ | ⟨_ | f, flushFates⟩ <;> rfl

lemma put_of_accept (b : UInt8) (h : settledWrite c.writeFates = .accept) : c.put b =
    (match (c.flushFates.headD .accept).fault? with
      | some f => .error f
      | none => .ok (), c.push b c.afterWrites.writeFates c.afterWrites.writes) := by
  rw [put_eq, h]
  rfl

lemma put_of_ne_accept (b : UInt8) (h : settledWrite c.writeFates ≠ .accept) :
    ∃ f, (settledWrite c.writeFates).fault? = some f ∧ c.put b = (.error f, c.afterWrites) := by
  rw [put_eq]
  cases hw : settledWrite c.writeFates with
  | accept => exact absurd hw h
  | nothing => exact ⟨_, rfl, rfl⟩
  | fault f => exact ⟨f, rfl, rfl⟩

section Projections

variable {fates : List WriteFate} {flushes : List FlushFate}

@[simp] lemma filterMap_delivery?_writeCalls :
    (writeCalls b fates flushes).filterMap Exchange.delivery? = [] := by
  unfold writeCalls
  split_ifs <;> simp [Exchange.delivery?]

@[simp] lemma filterMap_writeFate?_writeCalls :
    (writeCalls b fates flushes).filterMap Exchange.writeFate? =
      attempts WriteFate.isInterruption .accept fates := by
  unfold writeCalls
  split_ifs <;> simp [Exchange.writeFate?, Function.comp_def]

lemma filterMap_flushFate?_writeCalls :
    (writeCalls b fates flushes).filterMap Exchange.flushFate? =
      if settledWrite fates = .accept then [flushes.headD .accept] else [] := by
  unfold writeCalls
  split_ifs <;> simp [Exchange.flushFate?]

lemma filterMap_accepted?_writeCalls :
    (writeCalls b fates flushes).filterMap Exchange.accepted? =
      if settledWrite fates = .accept then [b] else [] := by
  have hused : ((fates.takeWhile WriteFate.isInterruption).map (.write b)).filterMap
      Exchange.accepted? = [] := by
    rw [List.filterMap_eq_nil_iff]
    intro e he
    obtain ⟨w, hw, rfl⟩ := List.mem_map.mp he
    have hint : w.isInterruption := List.mem_takeWhile_imp hw
    exact Exchange.accepted?_of_isInterruption hint
  have hflush : (if settledWrite fates = .accept then [Exchange.flush (flushes.headD .accept)]
      else []).filterMap Exchange.accepted? = [] := by
    split_ifs <;> rfl
  rw [writeCalls, attempts, List.filterMap_append, hflush, List.append_nil, List.map_append,
    List.filterMap_append, hused, List.nil_append]
  change [Exchange.write b (settledWrite fates)].filterMap _ = _
  cases settledWrite fates <;> rfl

end Projections

theorem replays_put (b : UInt8) (c : Console) :
    c.Replays (writeCalls b c.writeFates c.flushFates) (c.put b).2 := by
  -- a byte that is taken is put out and flushed, and nothing more is done otherwise
  by_cases hw : settledWrite c.writeFates = .accept
  · rw [put_of_accept b hw]
    constructor
    case input =>
      rw [filterMap_delivery?_writeCalls]
      exact .nil _
    case reads => rw [filterMap_delivery?_writeCalls, List.length_nil, Nat.add_zero]; rfl
    case writeFates =>
      rw [filterMap_writeFate?_writeCalls]
      exact gives_attempts WriteFate.isInterruption .accept c.writeFates
    case writes => rw [filterMap_writeFate?_writeCalls]; rfl
    case flushFates =>
      rw [filterMap_flushFate?_writeCalls, if_pos hw]
      exact .cons rfl (.nil _)
    case flushes => rw [filterMap_flushFate?_writeCalls, if_pos hw]; rfl
    case written =>
      rw [filterMap_accepted?_writeCalls, if_pos hw]
      exact Array.toList_push
  · obtain ⟨f, -, hput⟩ := put_of_ne_accept b hw
    rw [hput]
    constructor
    case input =>
      rw [filterMap_delivery?_writeCalls]
      exact .nil _
    case reads => rw [filterMap_delivery?_writeCalls, List.length_nil, Nat.add_zero]; rfl
    case writeFates =>
      rw [filterMap_writeFate?_writeCalls]
      exact gives_attempts WriteFate.isInterruption .accept c.writeFates
    case writes => rw [filterMap_writeFate?_writeCalls]; rfl
    case flushFates =>
      rw [filterMap_flushFate?_writeCalls, if_neg hw]
      exact .nil _
    case flushes => rw [filterMap_flushFate?_writeCalls, if_neg hw]; rfl
    case written =>
      rw [filterMap_accepted?_writeCalls, if_neg hw, List.append_nil]
      rfl

/-- Channels that answer the calls of a `.` give it the same fates as far as they matter. -/
lemma fates_of_replays {fates : List WriteFate} {flushes : List FlushFate}
    (h : c.Replays (writeCalls b fates flushes) c₁) :
    attempts WriteFate.isInterruption .accept c.writeFates =
        attempts WriteFate.isInterruption .accept fates ∧
      settledWrite c.writeFates = settledWrite fates ∧
      (settledWrite fates = .accept → c.flushFates.headD .accept = flushes.headD .accept) := by
  have hfates := h.writeFates
  rw [filterMap_writeFate?_writeCalls] at hfates
  have hattempts := hfates.attempts_eq (by decide)
  refine ⟨hattempts, settled_eq_of_attempts_eq hattempts, fun hw => ?_⟩
  have hflush := h.flushFates
  rw [filterMap_flushFate?_writeCalls, if_pos hw] at hflush
  cases hflush with
  | cons hhead _ => exact hhead

lemma writeCalls_of_replays {fates : List WriteFate} {flushes : List FlushFate}
    (h : c.Replays (writeCalls b fates flushes) c₁) :
    writeCalls b c.writeFates c.flushFates = writeCalls b fates flushes := by
  obtain ⟨hattempts, hsettled, hflush⟩ := fates_of_replays h
  unfold writeCalls
  rw [hattempts, hsettled]
  by_cases hw : settledWrite fates = .accept
  · rw [hflush hw]
  · rw [if_neg hw, if_neg hw]

theorem put_of_replays (h : c'.Replays (writeCalls b c.writeFates c.flushFates) c₁) :
    c'.put b = ((c.put b).1, c₁) := by
  obtain ⟨-, hsettled, hflush⟩ := fates_of_replays h
  have hfst : (c'.put b).1 = (c.put b).1 := by
    by_cases hw : settledWrite c.writeFates = .accept
    · rw [put_of_accept b hw, put_of_accept b (hsettled.trans hw), hflush hw]
    · obtain ⟨f, hf, hput⟩ := put_of_ne_accept b hw
      obtain ⟨f', hf', hput'⟩ := put_of_ne_accept b (hsettled ▸ hw)
      rw [hsettled, hf] at hf'
      cases hf'
      rw [hput, hput']
  rw [← writeCalls_of_replays h] at h
  rw [h.unique (c'.replays_put b), ← hfst]

end Console

/-! ### An instruction and its calls -/

/-- What an instruction comes to if it leaves the channels as `c`. -/
def Step.withConsole (c : Console) : Step → Step
  | .goes m _ => .goes m c
  | .stops o _ => .stops o c

/-- The channels that an instruction leaves. -/
def Step.console : Step → Console
  | .goes _ c => c
  | .stops _ c => c

@[simp] lemma Step.console_goes (m : Machine) (c : Console) : (goes m c).console = c := rfl

@[simp] lemma Step.console_stops (o : Outcome) (c : Console) : (stops o c).console = c := rfl

namespace Machine

variable {m : Machine} {c c' c₁ : Console}

lemma calls_of_emit {b : UInt8} (h : m.next = .emit b) (c : Console) :
    m.calls c = writeCalls b c.writeFates c.flushFates := by
  rw [calls, h]

lemma calls_of_accept (h : m.next = .accept) (c : Console) :
    m.calls c = readCalls c.input := by
  rw [calls, h]

lemma calls_of_silent (hw : ∀ b, m.next ≠ .emit b) (hr : m.next ≠ .accept) (c : Console) :
    m.calls c = [] := by
  cases hn : m.next with
  | emit b => exact absurd hn (hw b)
  | accept => exact absurd hn hr
  | _ => rw [calls, hn]

/-- **The calls of an instruction** lead the channels to where it leaves them. -/
theorem replays_calls (m : Machine) (c : Console) : c.Replays (m.calls c) (m.step c).console := by
  cases hn : m.next with
  | emit b =>
    have hput := c.replays_put b
    rw [calls_of_emit hn, step_of_emit hn]
    rcases hp : c.put b with ⟨_ | _, c₁⟩ <;> simpa [hp] using hput
  | accept =>
    have htake := c.replays_take
    rw [calls_of_accept hn, step_of_accept hn]
    rcases ht : c.take with ⟨_ | _ | b, c₁⟩ <;> simpa [ht] using htake
  | _ =>
    rw [calls_of_silent (by simp [hn]) (by simp [hn]), step, hn]
    exact .nil c

/-- Channels that answer the calls of an instruction have it make the same calls. -/
lemma calls_of_replays (h : c'.Replays (m.calls c) c₁) : m.calls c' = m.calls c := by
  cases hn : m.next with
  | emit b =>
    rw [calls_of_emit hn] at h
    rw [calls_of_emit hn, calls_of_emit hn, Console.writeCalls_of_replays h]
  | accept =>
    rw [calls_of_accept hn] at h
    rw [calls_of_accept hn, calls_of_accept hn, readCalls, readCalls,
      Console.attempts_of_replays_readCalls h]
  | _ => rw [calls, calls, hn]

/-- **The channels matter** for an instruction only by their answers to its calls. -/
theorem step_of_replays (h : c'.Replays (m.calls c) c₁) :
    m.step c' = (m.step c).withConsole c₁ := by
  cases hn : m.next with
  | emit b =>
    rw [calls_of_emit hn] at h
    rw [step_of_emit hn, step_of_emit hn, Console.put_of_replays h]
    rcases c.put b with ⟨_ | _, c₂⟩ <;> rfl
  | accept =>
    rw [calls_of_accept hn] at h
    rw [step_of_accept hn, step_of_accept hn, Console.take_of_replays h]
    rcases c.take with ⟨_ | _ | b, c₂⟩ <;> rfl
  | _ =>
    rw [calls_of_silent (by simp [hn]) (by simp [hn])] at h
    obtain rfl := h.eq_of_nil
    rw [step, step, hn]
    rfl

end Machine

namespace Run

/-- The calls of the next instruction of a run. -/
def calls (r : Run) : List Exchange := r.machine.calls r.console

/-- The run with other channels. -/
def withConsole (c : Console) (r : Run) : Run := { r with console := c }

variable {r : Run}

lemma goOn_withConsole (r : Run) (m : Machine) (c c' c₁ : Console) :
    (r.withConsole c').goOn m c₁ = (r.goOn m c).withConsole c₁ := by
  have he : (r.withConsole c').executed? m = r.executed? m := rfl
  unfold goOn
  rw [he]
  cases r.executed? m <;> rfl

/-- **An instruction on other channels** that answer its calls in the same way. -/
theorem advance_of_replays (hlt : r.machine.tape.pointer < r.machine.tape.length)
    (h : c'.Replays r.calls c₁) :
    (r.withConsole c').advance = r.advance.map (withConsole c₁) id := by
  have hstep : (r.withConsole c').machine.step (r.withConsole c').console =
      (r.machine.step r.console).withConsole c₁ := Machine.step_of_replays h
  have hlt' : (r.withConsole c').machine.tape.pointer < (r.withConsole c').machine.tape.length := hlt
  rw [advance_eq hlt, advance_eq hlt', hstep]
  cases r.machine.step r.console with
  | goes m c => exact congrArg Progress.running (r.goOn_withConsole m c c' c₁)
  | stops o c => rfl

end Run

end Brainfuck
