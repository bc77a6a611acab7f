import Brainfuck.Proofs.Invocation.Phases

/-!
The exit codes. An invocation that comes to its end has the code 0, 1 or 255, and it has the one that it
merits: 0 for what was done, 1 for a command line, a file or limits at fault, 255 for a run that has
failed (`Host.Merits`). Excepted are three things on which the tool gives up, whatever else there
is (`Host.GivesUp`); the code is 101 then. One of them is that help or the greeting is asked for and
nobody reads the standard output, which in a run is a failure like any other.
-/

namespace Brainfuck

/-- Giving up has an exit code of its own. -/
lemma Status.code_foreseen_iff {s : Status} :
    s.code = 0 ∨ s.code = 1 ∨ s.code = 255 ↔ s ≠ .aborted := by
  cases s <;> simp [Status.code]

namespace Obstacle

/-- The status of an invocation that meets an obstacle. -/
def status : Obstacle → Status
  | help | greeting => .success
  | sources | loading | limits => .refused

lemma Answered.status_eq {h : Host} {filter : Filter} {name : String} {o : Options} {x : Obstacle}
    {e : Ending} (ha : x.Answered h filter name o e) : e.status = x.status := by
  cases ha <;> rfl

end Obstacle

namespace Host

/-- What the tool gives up on. -/
inductive GivesUp (h : Host) : Prop
  /-- The setting of the log filter has a part that begins or ends inside a character. -/
  | filter {setting : String} : h.environment.text? "BF_LOG" = some setting →
      Filter.parse setting = .error .splitCharacter → GivesUp h
  /-- The name under which the tool was called is not UTF-8. -/
  | name : Utf8.decode? h.name = none → GivesUp h
  /-- A text is to be printed, and nobody reads the standard output. -/
  | print {o : Options} : Options.parse h.environment h.arguments = .ok o →
      o.help ∨ o.greeting → h.outputClosed → GivesUp h

/-- Nothing keeps the program from running, and the run ends with the given outcome. -/
inductive RunsTo (h : Host) (outcome : Outcome) : Prop
  | intro {filter : Filter} {o : Options} {program : Program} {limits : Limits}
      {loaded events : List Event} {r : Run} : h.filter? = some filter →
      Options.parse h.environment h.arguments = .ok o → h.obstacle? o = none →
      h.Source o program loaded →
      Limits.resolve h.files h.environment o.tapeSize o.stackDepth = (.ok limits, events) →
      (Call.start ⟨h.console, filter.traces⟩ (.new program limits)).Ends r outcome →
      RunsTo h outcome

/-- The status that an invocation merits. -/
inductive Merits (h : Host) : Status → Prop
  | arguments {e : UsageError} : Options.parse h.environment h.arguments = .error e →
      Merits h .refused
  | obstacle {o : Options} {x : Obstacle} : Options.parse h.environment h.arguments = .ok o →
      h.obstacle? o = some x → Merits h x.status
  | done : h.RunsTo .done → Merits h .success
  | failed {f : Failure} : h.RunsTo (.failed f) → Merits h .failed

variable {h : Host} {filter : Filter} {name : String} {o : Options} {e : Ending} {status : Status}

/-! ### Giving up -/

lemma filter?_eq_none_iff : h.filter? = none ↔ ∃ setting,
    h.environment.text? "BF_LOG" = some setting ∧
      Filter.parse setting = .error .splitCharacter := by
  unfold filter? Filter.ofSetting?
  cases h.environment.text? "BF_LOG" with
  | none => simp
  | some setting => rcases hf : Filter.parse setting with (_ | _) | f <;> simp [hf]

/-- Whatever the tool gives up on, it does so before any program is run. -/
lemma GivesUp.prepare_eq (hg : h.GivesUp) : ∃ m, h.prepare = .finished (.abort h.runtime m) := by
  cases hfilter : h.filter? with
  | none =>
    refine ⟨.splitFilter, ?_⟩
    simp only [prepare, hfilter]
  | some filter =>
  cases hname : Utf8.decode? h.name with
  | none =>
    refine ⟨.unreadableName, ?_⟩
    simp only [prepare, hfilter, hname]
  | some name =>
  cases hg with
  | filter hsetting hsplit =>
    rw [filter?_eq_none_iff.mpr ⟨_, hsetting, hsplit⟩] at hfilter
    cases hfilter
  | name hnone =>
    rw [hname] at hnone
    cases hnone
  | @print o hparse hasked hclosed =>
    have hprint (text : String) : h.print text = .abort h.runtime .unreadOutput := if_pos hclosed
    refine ⟨.unreadOutput, ?_⟩
    simp only [prepare, hfilter, hname, hparse, prepareWith, hprint]
    rcases hasked with hhelp | hgreeting
    · rw [if_pos hhelp]
    · rw [if_pos hgreeting, ite_self]

/-- Where the tool does not give up there is a filter and a name, and what is to be printed can be. -/
lemma exists_of_not_givesUp (hg : ¬ h.GivesUp) : ∃ filter name, h.filter? = some filter ∧
    Utf8.decode? h.name = some name ∧
    ∀ o, Options.parse h.environment h.arguments = .ok o → o.help ∨ o.greeting →
      h.outputClosed = false := by
  have hsome : h.filter? ≠ none := fun hnone => by
    obtain ⟨setting, hsetting, hsplit⟩ := filter?_eq_none_iff.mp hnone
    exact hg (.filter hsetting hsplit)
  obtain ⟨filter, hfilter⟩ := Option.ne_none_iff_exists'.mp hsome
  obtain ⟨name, hname⟩ := Option.ne_none_iff_exists'.mp fun hnone => hg (.name hnone)
  refine ⟨filter, name, hfilter, hname, fun o hparse hasked => ?_⟩
  exact Bool.eq_false_iff.mpr fun hclosed => hg (.print hparse hasked hclosed)

/-! ### What is merited -/

lemma Merits.ne_aborted (hm : h.Merits status) : status ≠ .aborted := by
  cases hm with
  | @obstacle o x => cases x <;> exact Status.noConfusion
  | arguments | done | failed => exact Status.noConfusion

/-- Options that are at fault are refused. -/
lemma merits_of_parse_error {x : UsageError}
    (hparse : Options.parse h.environment h.arguments = .error x) :
    h.Merits status ↔ status = .refused := by
  constructor
  · intro hm
    cases hm with
    | arguments => rfl
    | obstacle hok => simp [hparse] at hok
    | done hr | failed hr =>
      obtain ⟨-, hok, -, -, -, -⟩ := hr
      simp [hparse] at hok
  · rintro rfl
    exact .arguments hparse

/-- An obstacle decides what is merited. -/
lemma merits_of_obstacle {x : Obstacle} (hparse : Options.parse h.environment h.arguments = .ok o)
    (hx : h.obstacle? o = some x) : h.Merits status ↔ status = x.status := by
  constructor
  · intro hm
    cases hm with
    | arguments herror => simp [hparse] at herror
    | obstacle hok hx' =>
      obtain rfl : o = _ := Except.ok.inj (hparse.symm.trans hok)
      obtain rfl : x = _ := Option.some.inj (hx.symm.trans hx')
      rfl
    | done hr | failed hr =>
      obtain ⟨-, hok, hx', -, -, -⟩ := hr
      obtain rfl : o = _ := Except.ok.inj (hparse.symm.trans hok)
      simp [hx] at hx'
  · rintro rfl
    exact .obstacle hparse hx

/-- Without an obstacle the outcome of the run decides. -/
lemma merits_of_job {program : Program} {limits : Limits} {loaded events : List Event}
    (hfilter : h.filter? = some filter) (hparse : Options.parse h.environment h.arguments = .ok o)
    (hx : h.obstacle? o = none) (hs : h.Source o program loaded)
    (hr : Limits.resolve h.files h.environment o.tapeSize o.stackDepth = (.ok limits, events)) :
    h.Merits status ↔ ∃ r outcome,
      (Call.start ⟨h.console, filter.traces⟩ (.new program limits)).Ends r outcome ∧
        status = Job.status outcome := by
  have hends {outcome : Outcome} (hruns : h.RunsTo outcome) : ∃ r,
      (Call.start ⟨h.console, filter.traces⟩ (.new program limits)).Ends r outcome := by
    obtain ⟨hfilter', hok, -, hs', hr', he⟩ := hruns
    obtain rfl : filter = _ := Option.some.inj (hfilter.symm.trans hfilter')
    obtain rfl : o = _ := Except.ok.inj (hparse.symm.trans hok)
    obtain ⟨rfl, rfl⟩ := hs.unique hs'
    rw [hr] at hr'
    cases hr'
    exact ⟨_, he⟩
  constructor
  · intro hm
    cases hm with
    | arguments herror => simp [hparse] at herror
    | obstacle hok hx' =>
      obtain rfl : o = _ := Except.ok.inj (hparse.symm.trans hok)
      simp [hx] at hx'
    | done hruns =>
      obtain ⟨r, he⟩ := hends hruns
      exact ⟨r, _, he, rfl⟩
    | failed hruns =>
      obtain ⟨r, he⟩ := hends hruns
      exact ⟨r, _, he, rfl⟩
  · rintro ⟨r, outcome, he, rfl⟩
    have hruns : h.RunsTo outcome := .intro hfilter hparse hx hs hr he
    have hl := Limits.one_le_tapeSize (Limits.violation?_of_resolve hr)
    rcases Machine.Sound.done_or_failed (Machine.sound_new _ _) hl he with rfl | ⟨f, rfl⟩
    · exact .done hruns
    · exact .failed hruns

/-- With options to go by, an invocation ends with the status that it merits. -/
lemma exists_endsAs_status_iff (name : String) (hfilter : h.filter? = some filter)
    (hparse : Options.parse h.environment h.arguments = .ok o)
    (ho : o.help ∨ o.greeting → h.outputClosed = false) :
    (∃ e, h.EndsAs filter name o e ∧ e.status = status) ↔ h.Merits status := by
  rcases prepareWith_cases ho filter name with
    ⟨x, e, hx, hp, ha⟩ | ⟨program, loaded, limits, events, hx, hs, hr, hp⟩
  · rw [merits_of_obstacle hparse hx, ← ha.status_eq]
    constructor
    · rintro ⟨e', he, rfl⟩
      rw [(endsAs_of_finished hp).mp he]
    · rintro rfl
      exact ⟨e, .finished hp, rfl⟩
  · rw [merits_of_job hfilter hparse hx hs hr]
    simp only [endsAs_of_ready hp]
    constructor
    · rintro ⟨_, ⟨r, outcome, he, rfl⟩, rfl⟩
      exact ⟨r, outcome, he, rfl⟩
    · rintro ⟨r, outcome, he, rfl⟩
      exact ⟨_, ⟨r, outcome, he, rfl⟩, rfl⟩

/-- Where the tool does not give up, an invocation ends with the status that it merits. -/
lemma exists_runFor_status_iff (hg : ¬ h.GivesUp) :
    (∃ fuel e, h.runFor fuel = some e ∧ e.status = status) ↔ h.Merits status := by
  obtain ⟨filter, name, hfilter, hname, hprint⟩ := exists_of_not_givesUp hg
  cases hparse : Options.parse h.environment h.arguments with
  | error x =>
    have hrun (fuel : Nat) : h.runFor fuel =
        some (.refusal [s!"{name}: {x.message}"] (Usage.text name)) := by
      simp only [runFor, prepare, hfilter, hname, hparse]
    rw [merits_of_parse_error hparse]
    constructor
    · rintro ⟨fuel, e, he, rfl⟩
      rw [hrun] at he
      cases he
      rfl
    · rintro rfl
      exact ⟨0, _, hrun 0, rfl⟩
  | ok o =>
    rw [← exists_endsAs_status_iff name hfilter hparse (hprint o hparse), exists_comm]
    simp only [exists_and_right, exists_runFor_iff hfilter hname hparse]

/-! ### Exit codes -/

/-- **The exit codes**: an invocation that comes to its end has the code 0, 1 or 255 iff there is
nothing that the tool gives up on. Its status is then the one that it merits, and it comes to its end
iff it merits one; else the code is 101, before any program is run. -/
theorem exits_iff (h : Host) :
    (∀ fuel e, h.runFor fuel = some e →
      (e.status.code = 0 ∨ e.status.code = 1 ∨ e.status.code = 255 ↔ ¬ h.GivesUp)) ∧
    (¬ h.GivesUp → ∀ status,
      (∃ fuel e, h.runFor fuel = some e ∧ e.status = status) ↔ h.Merits status) ∧
    (h.GivesUp → ∃ e, (∀ fuel, h.runFor fuel = some e) ∧ e.status.code = 101) := by
  have hgives (hg : h.GivesUp) : ∃ e, (∀ fuel, h.runFor fuel = some e) ∧ e.status.code = 101 := by
    obtain ⟨m, hp⟩ := hg.prepare_eq
    exact ⟨.abort h.runtime m, fun fuel => by simp only [runFor, hp], rfl⟩
  refine ⟨fun fuel e hrun => ?_, fun hg status => exists_runFor_status_iff hg, hgives⟩
  constructor
  · intro hcode hg
    obtain ⟨e', hrun', hcode'⟩ := hgives hg
    obtain rfl : e' = e := Option.some.inj ((hrun' fuel).symm.trans hrun)
    omega
  · intro hg
    have hm : h.Merits e.status := (exists_runFor_status_iff hg).mp ⟨fuel, e, hrun, rfl⟩
    exact Status.code_foreseen_iff.mpr hm.ne_aborted

/-- A program that writes, with nobody to read: a run that fails, with the code of one. -/
theorem exits_iff_unread :
    let h : Host := {
      name := [0x62, 0x66]
      arguments := [[0x2d, 0x63], [0x2e]]
      environment := [("BF_TAPE_SIZE", [0x39])]
      files := fun _ => .error .noSuchFile
      input := []
      outputClosed := true }
    ¬ h.GivesUp ∧ h.Merits .failed ∧ ∃ fuel e, h.runFor fuel = some e ∧ e.status.code = 255 ∧
      (e.status.code = 0 ∨ e.status.code = 1 ∨ e.status.code = 255) := by
  intro h
  have hparse : Options.parse h.environment h.arguments = .ok { code := some ".", tapeSize := some 9 } := by
    decide +kernel
  have hsetting : h.environment.text? "BF_LOG" = none := by decide +kernel
  have hg : ¬ h.GivesUp := by
    intro hg
    cases hg with
    | filter hsome =>
      rw [hsetting] at hsome
      cases hsome
    | name hnone => exact absurd hnone (by decide +kernel)
    | print hok hasked =>
      cases hparse.symm.trans hok
      exact absurd hasked (by decide)
  obtain ⟨hcode, hmerits, -⟩ := exits_iff h
  have hrun : (h.runFor 1).map (Ending.status ·) = some .failed := by decide +kernel
  obtain ⟨e, he, hfailed⟩ := Option.map_eq_some_iff.mp hrun
  exact ⟨hg, (hmerits hg _).mp ⟨1, e, he, hfailed⟩, 1, e, he, by rw [hfailed]; rfl,
    (hcode 1 e he).mpr hg⟩

/-- The code is not always 0, 1 or 255: help is asked for, with nobody to read it. -/
theorem not_forall_exits : ¬ ∀ (h : Host) (fuel : Nat) (e : Ending), h.runFor fuel = some e →
    e.status.code = 0 ∨ e.status.code = 1 ∨ e.status.code = 255 := by
  intro hall
  let h : Host := {
    name := [0x62, 0x66]
    arguments := [[0x2d, 0x68]]
    environment := []
    files := fun _ => .error .noSuchFile
    input := []
    outputClosed := true }
  have hrun : (h.runFor 0).map (Ending.status ·) = some .aborted := by decide +kernel
  obtain ⟨e, he, haborted⟩ := Option.map_eq_some_iff.mp hrun
  have hcode := hall h 0 e he
  rw [haborted] at hcode
  exact absurd hcode (by decide)

end Host

end Brainfuck
