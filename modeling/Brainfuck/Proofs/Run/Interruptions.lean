import Brainfuck.Proofs.Run.Calls

/-!
Interruptions that are inserted into the scripts of reads and writes. A script with them and the script
without them are read off one list of items (`Item`), in which the inserted ones are marked.

Before an item that is no interruption a call uses up all the interruptions there are, so it comes to
the same with and without the inserted ones, and the scripts are then left at the same place of that
list (`drop_attempts`). Hence the two runs have the same machine and the same log at every instruction;
their channels differ by the inserted items that are used up (`Console.Undisturbed`).
-/

namespace Brainfuck

/-- An item of a script, or an interruption that is inserted into it. -/
inductive Item {α : Type} (interrupted : α → Bool) where
  | kept (x : α)
  | inserted (x : α) (h : interrupted x)

section Scripts

variable {α : Type} {interrupted : α → Bool}

namespace Item

def value : Item interrupted → α
  | kept x | inserted x _ => x

def kept? : Item interrupted → Option α
  | kept x => some x
  | inserted _ _ => none

def isInserted : Item interrupted → Bool
  | kept _ => false
  | inserted _ _ => true

end Item

/-- The script with the inserted interruptions. -/
def withInserted (items : List (Item interrupted)) : List α := items.map Item.value

/-- The script without the inserted interruptions. -/
def withoutInserted (items : List (Item interrupted)) : List α := items.filterMap Item.kept?

/-- The number of inserted interruptions. -/
def countInserted (items : List (Item interrupted)) : Nat := items.countP Item.isInserted

/-- The number of items that a caller uses up. -/
def usedUp (past : α) (items : List (Item interrupted)) : Nat :=
  (attempts interrupted past (withInserted items)).length

variable {past x : α} {items : List (Item interrupted)}

lemma usedUp_kept (hx : interrupted x) :
    usedUp past (.kept x :: items) = usedUp past items + 1 :=
  congrArg List.length (attempts_cons_of_interrupted hx (withInserted items))

lemma usedUp_inserted (hx : interrupted x) :
    usedUp past (.inserted x hx :: items) = usedUp past items + 1 :=
  congrArg List.length (attempts_cons_of_interrupted hx (withInserted items))

lemma usedUp_of_settled (hx : ¬ interrupted x) : usedUp past (.kept x :: items) = 1 :=
  congrArg List.length (attempts_cons_of_not hx (withInserted items))

/-- A caller gets the same item in the end, inserted interruptions or not. -/
lemma settled_withInserted (past : α) (items : List (Item interrupted)) :
    settled interrupted past (withInserted items) =
      settled interrupted past (withoutInserted items) := by
  induction items with
  | nil => rfl
  | cons item items ih =>
    cases item with
    | inserted x hx => exact (settled_cons_of_interrupted hx (withInserted items)).trans ih
    | kept x =>
      by_cases hx : interrupted x
      · exact (settled_cons_of_interrupted hx (withInserted items)).trans
          (ih.trans (settled_cons_of_interrupted hx (withoutInserted items)).symm)
      · simp [settled, withInserted, withoutInserted, Item.value, Item.kept?, hx]

/-- With the inserted interruptions the caller makes as many calls more as it uses up of them. -/
lemma usedUp_eq (past : α) (items : List (Item interrupted)) :
    usedUp past items = (attempts interrupted past (withoutInserted items)).length +
      countInserted (items.take (usedUp past items)) := by
  induction items with
  | nil => rfl
  | cons item items ih =>
    cases item with
    | inserted x hx =>
      rw [usedUp_inserted, List.take_succ_cons, countInserted, List.countP_cons_of_pos rfl]
      exact congrArg (· + 1) ih
    | kept x =>
      by_cases hx : interrupted x
      · have hlength : (attempts interrupted past (withoutInserted (.kept x :: items))).length =
            (attempts interrupted past (withoutInserted items)).length + 1 :=
          congrArg List.length (attempts_cons_of_interrupted hx (withoutInserted items))
        rw [usedUp_kept hx, hlength, List.take_succ_cons, countInserted,
          List.countP_cons_of_neg Bool.false_ne_true]
        unfold countInserted at ih
        omega
      · have hlength : (attempts interrupted past (withoutInserted (.kept x :: items))).length = 1 :=
          congrArg List.length (attempts_cons_of_not hx (withoutInserted items))
        rw [usedUp_of_settled hx, hlength]
        rfl

/-! The two scripts are then left at the same item. -/

lemma tail_withInserted (past : α) (items : List (Item interrupted)) :
    ((withInserted items).dropWhile interrupted).tail =
      withInserted (items.drop (usedUp past items)) := by
  rw [(gives_attempts interrupted past (withInserted items)).rest_eq]
  exact List.map_drop.symm

lemma tail_withoutInserted (past : α) (items : List (Item interrupted)) :
    ((withoutInserted items).dropWhile interrupted).tail =
      withoutInserted (items.drop (usedUp past items)) := by
  induction items with
  | nil => rfl
  | cons item items ih =>
    cases item with
    | inserted x hx =>
      rw [usedUp_inserted, List.drop_succ_cons]
      exact ih
    | kept x =>
      by_cases hx : interrupted x
      · rw [usedUp_kept hx, List.drop_succ_cons, ← ih]
        exact congrArg List.tail (List.dropWhile_cons_of_pos hx)
      · rw [usedUp_of_settled hx, List.drop_succ_cons, List.drop_zero]
        exact congrArg List.tail (List.dropWhile_cons_of_neg hx)

/-- A script with the inserted interruptions and the script without them, at the same item after
`count'` and `count` calls. -/
structure Interspersed (items : List (Item interrupted)) (script script' : List α)
    (count count' : Nat) : Prop where
  without : script = withoutInserted (items.drop count')
  inserted : script' = withInserted (items.drop count')
  /-- The more calls are made for the inserted interruptions that are used up. -/
  count : count' = count + countInserted (items.take count')

/-- **A caller is not disturbed.** -/
theorem Interspersed.attempts {items : List (Item interrupted)} {script script' : List α}
    {count count' : Nat} (h : Interspersed items script script' count count') (past : α) :
    settled interrupted past script' = settled interrupted past script ∧
      Interspersed items (script.dropWhile interrupted).tail (script'.dropWhile interrupted).tail
        (count + (attempts interrupted past script).length)
        (count' + (attempts interrupted past script').length) := by
  obtain ⟨rfl, rfl, hcount⟩ := h
  refine ⟨settled_withInserted past _, ?_, ?_, ?_⟩
  · rw [tail_withoutInserted past, List.drop_drop]
    rfl
  · rw [tail_withInserted past, List.drop_drop]
    rfl
  · have hused := usedUp_eq past (items.drop count')
    unfold countInserted usedUp at hused
    unfold countInserted at hcount ⊢
    rw [List.take_add, List.countP_append]
    omega

end Scripts

/-- The channels `c` and `c'` have given and taken the same, but the scripts of `c'` have interruptions
inserted. -/
structure Console.Undisturbed (reads : List (Item Delivery.isInterruption))
    (writes : List (Item WriteFate.isInterruption)) (c c' : Console) : Prop where
  input : Interspersed reads c.input c'.input c.reads c'.reads
  writeFates : Interspersed writes c.writeFates c'.writeFates c.writes c'.writes
  flushFates : c'.flushFates = c.flushFates
  output : c'.output = c.output
  flushes : c'.flushes = c.flushes

/-- What an instruction comes to with the channels of either kind. -/
inductive Step.Undisturbed (reads : List (Item Delivery.isInterruption))
    (writes : List (Item WriteFate.isInterruption)) : Step → Step → Prop
  | goes {m : Machine} {c c' : Console} : c.Undisturbed reads writes c' →
      Undisturbed reads writes (.goes m c) (.goes m c')
  | stops {o : Outcome} {c c' : Console} : c.Undisturbed reads writes c' →
      Undisturbed reads writes (.stops o c) (.stops o c')

/-- What a run has come to with the channels of either kind. -/
inductive Progress.Undisturbed (reads : List (Item Delivery.isInterruption))
    (writes : List (Item WriteFate.isInterruption)) : Progress → Progress → Prop
  | running {r : Run} {c' : Console} : r.console.Undisturbed reads writes c' →
      Undisturbed reads writes (.running r) (.running (r.withConsole c'))
  | ended {r : Run} {c' : Console} {o : Outcome} : r.console.Undisturbed reads writes c' →
      Undisturbed reads writes (.ended r o) (.ended (r.withConsole c') o)

variable {reads : List (Item Delivery.isInterruption)}
  {writes : List (Item WriteFate.isInterruption)} {p : Program} {l : Limits} {m : Machine}
  {c c' : Console} {r r' s : Run} {o : Outcome} {b : UInt8}

namespace Console.Undisturbed

lemma ofScripts (reads : List (Item Delivery.isInterruption))
    (writes : List (Item WriteFate.isInterruption)) (flushes : List FlushFate) :
    (Console.ofScripts (withoutInserted reads) (withoutInserted writes) flushes).Undisturbed reads
      writes (.ofScripts (withInserted reads) (withInserted writes) flushes) where
  input := ⟨rfl, rfl, rfl⟩
  writeFates := ⟨rfl, rfl, rfl⟩
  flushFates := rfl
  output := rfl
  flushes := rfl

lemma take (h : c.Undisturbed reads writes c') :
    c'.take.1 = c.take.1 ∧ c.take.2.Undisturbed reads writes c'.take.2 := by
  obtain ⟨hsettled, hinput⟩ := h.input.attempts .eof
  rw [take_eq, take_eq, hsettled]
  exact ⟨rfl, { h with input := hinput }⟩

lemma put (h : c.Undisturbed reads writes c') (b : UInt8) :
    (c'.put b).1 = (c.put b).1 ∧ (c.put b).2.Undisturbed reads writes (c'.put b).2 := by
  obtain ⟨hsettled, hfates⟩ := h.writeFates.attempts .accept
  have hsettled : settledWrite c'.writeFates = settledWrite c.writeFates := hsettled
  rw [put_eq, put_eq, hsettled, h.flushFates]
  cases (settledWrite c.writeFates).fault? with
  | some f => exact ⟨rfl, { h with writeFates := hfates }⟩
  | none =>
    refine ⟨rfl, { h with writeFates := hfates, flushFates := ?_, output := ?_, flushes := ?_ }⟩
    · exact congrArg List.tail h.flushFates
    · exact congrArg (ByteArray.push · b) h.output
    · exact congrArg (· + 1) h.flushes

/-- **One instruction** comes to the same. -/
theorem step (h : c.Undisturbed reads writes c') (m : Machine) :
    (m.step c).Undisturbed reads writes (m.step c') := by
  cases hn : m.next with
  | emit b =>
    obtain ⟨hanswer, hconsole⟩ := h.put b
    rw [Machine.step_of_emit hn, Machine.step_of_emit hn]
    rcases hp : c.put b with ⟨answer, c₁⟩
    rcases hp' : c'.put b with ⟨answer', c₁'⟩
    rw [hp, hp'] at hanswer hconsole
    obtain rfl : answer' = answer := hanswer
    cases answer' with
    | ok => exact .goes hconsole
    | error f => exact .stops hconsole
  | accept =>
    obtain ⟨hanswer, hconsole⟩ := h.take
    rw [Machine.step_of_accept hn, Machine.step_of_accept hn]
    rcases ht : c.take with ⟨answer, c₁⟩
    rcases ht' : c'.take with ⟨answer', c₁'⟩
    rw [ht, ht'] at hanswer hconsole
    obtain rfl : answer' = answer := hanswer
    cases answer' with
    | ok answer => cases answer <;> exact .goes hconsole
    | error f => exact .stops hconsole
  | _ =>
    rw [Machine.step, Machine.step, hn]
    first | exact .goes h | exact .stops h

end Console.Undisturbed

namespace Run

lemma advance_undisturbed (hlt : r.machine.tape.pointer < r.machine.tape.length)
    (h : r.console.Undisturbed reads writes c') :
    r.advance.Undisturbed reads writes (r.withConsole c').advance := by
  have hstep := h.step r.machine
  generalize hs : r.machine.step r.console = s, hs' : r.machine.step c' = s' at hstep
  cases hstep with
  | @goes m c c₁' hc =>
    rw [advance_of_goes hlt hs, advance_of_goes (r := r.withConsole c') hlt hs',
      goOn_withConsole r m c c' c₁']
    refine .running ?_
    rwa [console_goOn]
  | @stops o c c₁' hc =>
    rw [advance_of_stops hlt hs, advance_of_stops (r := r.withConsole c') hlt hs']
    exact .ended (r := r.stop o c) hc

/-- **Any number of instructions** come to the same. -/
theorem iterate_undisturbed (n : Nat) (hlt : r.machine.tape.pointer < r.machine.tape.length)
    (h : r.console.Undisturbed reads writes c') :
    (r.iterate n).Undisturbed reads writes ((r.withConsole c').iterate n) := by
  induction n generalizing r c' with
  | zero => exact .running h
  | succ n ih =>
    have ha := advance_undisturbed hlt h
    rw [iterate, iterate]
    generalize hadv : r.advance = x, (r.withConsole c').advance = x' at ha
    cases ha with
    | running hc => exact ih ((moves_of_advance hadv).pointer_lt hlt) hc
    | ended hc => exact .ended hc

end Run

/-- **Interruptions of reads and writes are transparent.** A run ends with inserted interruptions iff
it ends without them, in the same way and with the same machine and log: only its channels differ, by
the inserted interruptions that it has used up and by those that are left. -/
theorem Reachable.interruptions_transparent (hm : Reachable p l m) (hl : 1 ≤ l.tapeSize)
    (reads : List (Item Delivery.isInterruption)) (writes : List (Item WriteFate.isInterruption))
    (flushes : List FlushFate) (traced : Bool) :
    let without := (Call.mk (.ofScripts (withoutInserted reads) (withoutInserted writes) flushes)
      traced).start m
    let inserted := (Call.mk (.ofScripts (withInserted reads) (withInserted writes) flushes)
      traced).start m
    (∀ r o, without.Ends r o →
      ∃ c', inserted.Ends (r.withConsole c') o ∧ r.console.Undisturbed reads writes c') ∧
    (∀ r' o, inserted.Ends r' o →
      ∃ r, without.Ends r o ∧ r' = r.withConsole r'.console ∧
        r.console.Undisturbed reads writes r'.console) := by
  intro without inserted
  have hlt : without.machine.tape.pointer < without.machine.tape.length := hm.sound.pointer_lt hl
  have hscripts := Console.Undisturbed.ofScripts reads writes flushes
  have hiterate (n : Nat) : (without.iterate n).Undisturbed reads writes (inserted.iterate n) :=
    Run.iterate_undisturbed n hlt hscripts
  constructor
  · rintro r o ⟨n, hn⟩
    have h := hiterate n
    rw [hn] at h
    generalize hn' : inserted.iterate n = x at h
    cases h with
    | @ended _ c' _ hc => exact ⟨c', ⟨n, hn'⟩, hc⟩
  · rintro r' o ⟨n, hn⟩
    have h := hiterate n
    rw [hn] at h
    generalize hn' : without.iterate n = x at h
    cases h with
    | @ended r c' _ hc => exact ⟨r, ⟨n, hn'⟩, rfl, hc⟩

/-- The `,` and the `.` of `,.` meet one inserted interruption each; another one is not met. -/
theorem Reachable.interruptions_transparent_echo :
    let p : Program := .ofList [0x2c, 0x2e]
    let f : Fault := ⟨.interrupted, none⟩
    let reads : List (Item Delivery.isInterruption) :=
      [.inserted (.fault f) rfl, .kept (.byte 7), .inserted (.fault f) rfl]
    let writes : List (Item WriteFate.isInterruption) := [.inserted (.fault f) rfl, .kept .accept]
    let without := (Call.mk (.ofScripts [.byte 7] [.accept] []) true).start (.new p ⟨1, 0⟩)
    let inserted := (Call.mk (.ofScripts [.fault f, .byte 7, .fault f] [.fault f, .accept] [])
      true).start (.new p ⟨1, 0⟩)
    ∃ r c', without.Ends r .done ∧ inserted.Ends (r.withConsole c') .done ∧
      r.console.Undisturbed reads writes c' ∧ (c'.reads, c'.writes) = (2, 2) := by
  intro p f reads writes without inserted
  have hended : (match inserted.iterate 3 with
      | .ended r' o => (o, r'.console.reads, r'.console.writes)
      | .running _ => (.crashed, 0, 0)) = (.done, 2, 2) := by
    decide +kernel
  split at hended
  · rename_i r' o hn
    obtain ⟨rfl, hcounts⟩ := Prod.mk.inj hended
    obtain ⟨-, hwith⟩ := Reachable.interruptions_transparent (.new (p := p) (l := ⟨1, 0⟩))
      (by decide) reads writes [] true
    obtain ⟨r, hr, heq, hconsole⟩ := hwith r' .done ⟨3, hn⟩
    rw [heq] at hn
    exact ⟨r, r'.console, hr, ⟨3, hn⟩, hconsole, hcounts⟩
  · cases hended

end Brainfuck
