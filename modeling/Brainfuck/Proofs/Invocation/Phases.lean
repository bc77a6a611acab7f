import Brainfuck.Invocation
import Brainfuck.Proofs.Run.Accesses

/-!
The phases of an invocation. Five things can keep it from running a program, and any of them can be the
case at once (`Obstacle`). They are looked for in one order, the first that is found decides how the
invocation ends, and nothing is run then (`Host.prepareWith_cases`). If none is found there is one
program and one choice of limits, and the invocation ends as their run does (`Host.endsAs_iff`).
-/

namespace Brainfuck

/-- What can keep an invocation from running a program. -/
inductive Obstacle where
  /-- Help is asked for. -/
  | help
  /-- The greeting is asked for. -/
  | greeting
  /-- A program is given in two ways, or in none. -/
  | sources
  /-- The file of the program cannot be loaded. -/
  | loading
  /-- The limits cannot be settled. -/
  | limits
  deriving DecidableEq, Repr

/-- Whether the file of a program can be loaded: it can be opened, a buffer of its size may exist and is
granted, and it can be read. -/
def Host.canLoad (h : Host) (path : Path) : Bool :=
  match h.sizes path with
  | .ok size => size ≤ Memory.maxBuffer && h.memory.grants size && (h.files path).isOk
  | .error _ => false

namespace Obstacle

/-- The order in which they are looked for. -/
def order : List Obstacle := [.help, .greeting, .sources, .loading, .limits]

/-- Whether the obstacle is there, whatever others there are. -/
def isThere (h : Host) (o : Options) : Obstacle → Bool
  | help => o.help
  | greeting => o.greeting
  | sources => o.code.isSome == o.file.isSome
  | loading => o.file.any fun path => !h.canLoad path
  | limits => !(Limits.resolve h.files h.environment o.tapeSize o.stackDepth).1.isOk

end Obstacle

namespace Host

/-- The first obstacle. -/
def obstacle? (h : Host) (o : Options) : Option Obstacle :=
  Obstacle.order.find? (Obstacle.isThere h o)

/-- The program that is given in one way, and what is logged when it is loaded. That of a file is all that
is in it. -/
inductive Source (h : Host) (o : Options) : Program → List Event → Prop
  | inline {code : String} : o.code = some code → o.file = none →
      Source h o (.ofBytes code.toUTF8) []
  | file {path : Path} {size : Nat} {content : ByteArray} : o.code = none → o.file = some path →
      h.sizes path = .ok size → size ≤ Memory.maxBuffer → h.memory.grants size →
      h.files path = .ok content →
      Source h o (.ofBytes content) [.programLoaded path.text content.size]

/-- The words for what keeps the file of a program from being loaded. -/
inductive Unloadable (h : Host) (path : Path) : String → Prop
  | unopened {fault : Fault} : h.sizes path = .error fault →
      Unloadable h path s!"Cannot open file '{path.text}': {fault.text}"
  | noRoom {size : Nat} : h.sizes path = .ok size →
      ¬ (size ≤ Memory.maxBuffer ∧ h.memory.grants size) →
      Unloadable h path s!"Memory allocation failed while reading '{path.text}' ({size} bytes)"
  | unread {size : Nat} {fault : Fault} : h.sizes path = .ok size → size ≤ Memory.maxBuffer →
      h.memory.grants size → h.files path = .error fault →
      Unloadable h path s!"Cannot open file '{path.text}': {fault.text}"

end Host

/-- How an invocation ends that meets an obstacle. -/
inductive Obstacle.Answered (h : Host) (filter : Filter) (name : String) (o : Options) :
    Obstacle → Ending → Prop
  | help : Answered h filter name o .help ⟨.success, (Usage.text name).toUTF8, ""⟩
  | greeting : Answered h filter name o .greeting ⟨.success, Usage.greeting.toUTF8, ""⟩
  | twoSources : o.code.isSome → o.file.isSome → Answered h filter name o .sources
      ⟨.refused, .empty,
        Report.text [s!"{name}: cannot use -c together with a file"] ++ Usage.text name⟩
  | noSource : o.code = none → o.file = none → Answered h filter name o .sources
      ⟨.refused, .empty, Usage.text name⟩
  | loading {path : Path} {words : String} : o.file = some path → h.Unloadable path words →
      Answered h filter name o .loading
        ⟨.refused, .empty, Report.text [s!"{name}: Error: {words}"]⟩
  | limits {program : Program} {e : LimitsError} {loaded events : List Event} :
      h.Source o program loaded →
      Limits.resolve h.files h.environment o.tapeSize o.stackDepth = (.error e, events) →
      Answered h filter name o .limits ⟨.refused, .empty,
        Report.text (filter.lines (loaded ++ events) ++ [s!"{name}: {e.message}"])⟩

namespace Host

/-- The invocation with the given options comes to its end, before a run or with one. -/
inductive EndsAs (h : Host) (filter : Filter) (name : String) (o : Options) : Ending → Prop
  | finished {e : Ending} : h.prepareWith filter name o = .finished e → EndsAs h filter name o e
  | ran {job : Job} {r : Run} {outcome : Outcome} : h.prepareWith filter name o = .ready job →
      (job.start h.console).Ends r outcome → EndsAs h filter name o (job.conclude r outcome)

variable {h : Host} {filter : Filter} {name : String} {o : Options} {e : Ending}

/-- An invocation ends within some number of instructions as its options say. -/
lemma exists_runFor_iff (hfilter : h.filter? = some filter)
    (hname : Utf8.decode? h.name = some name)
    (hparse : Options.parse h.environment h.arguments = .ok o) :
    (∃ fuel, h.runFor fuel = some e) ↔ h.EndsAs filter name o e := by
  have hprepare : h.prepare = h.prepareWith filter name o := by
    simp only [prepare, hfilter, hname, hparse]
  unfold runFor
  rw [hprepare]
  constructor
  · rintro ⟨fuel, hrun⟩
    cases hp : h.prepareWith filter name o with
    | finished e' =>
      simp only [hp, Option.some.injEq] at hrun
      exact hrun ▸ .finished hp
    | ready job =>
      simp only [hp] at hrun
      cases hit : (job.start h.console).iterate fuel with
      | running r => simp [hit] at hrun
      | ended r outcome =>
        simp only [hit, Option.some.injEq] at hrun
        exact hrun ▸ .ran hp ⟨fuel, hit⟩
  · intro he
    cases he with
    | finished hp => exact ⟨0, by rw [hp]⟩
    | ran hp hr =>
      obtain ⟨fuel, hit⟩ := hr
      exact ⟨fuel, by simp only [hp, hit]⟩

/-! ### Loading -/

/-- A file that can be opened and read, and for which there is room, is loaded. -/
lemma load_of_content {path : Path} {size : Nat} {content : ByteArray} (hsize : h.sizes path = .ok size)
    (hmax : size ≤ Memory.maxBuffer) (hgrant : h.memory.grants size)
    (hread : h.files path = .ok content) :
    h.canLoad path = true ∧ Program.load h.files path h.sizes h.memory =
      .ok (.ofBytes content, [.programLoaded path.text content.size]) := by
  have hroom : h.memory.hasRoom size := Memory.hasRoom_iff.mpr ⟨hmax, hgrant⟩
  constructor
  · simp [canLoad, hsize, hmax, hgrant, hread, Except.isOk, Except.toBool]
  · simp [Program.load, hsize, hroom, hread]

/-- What keeps a file from being loaded is told of in the error. -/
lemma Unloadable.load_eq {path : Path} {words : String} (hw : h.Unloadable path words) :
    h.canLoad path = false ∧ ∃ e : LoadError, e.message = words ∧
      Program.load h.files path h.sizes h.memory = .error e := by
  cases hw with
  | @unopened fault hopen =>
    refine ⟨by simp [canLoad, hopen], .unreadable path fault, rfl, ?_⟩
    simp [Program.load, hopen]
  | @noRoom size hsize hroom =>
    have hno : ¬ h.memory.hasRoom size := mt Memory.hasRoom_iff.mp hroom
    refine ⟨?_, .outOfMemory path size, rfl, ?_⟩
    · simp only [canLoad, hsize, Bool.and_eq_false_imp, Bool.and_eq_true, decide_eq_true_eq]
      exact fun hfits => absurd hfits hroom
    · simp [Program.load, hsize, hno]
  | @unread size fault hsize hmax hgrant hread =>
    have hroom : h.memory.hasRoom size := Memory.hasRoom_iff.mpr ⟨hmax, hgrant⟩
    refine ⟨?_, .unreadable path fault, rfl, ?_⟩
    · simp [canLoad, hsize, hread, Except.isOk, Except.toBool]
    · simp [Program.load, hsize, hroom, hread]

lemma Unloadable.unique {path : Path} {words words' : String} (hw : h.Unloadable path words)
    (hw' : h.Unloadable path words') : words = words' := by
  obtain ⟨-, e, rfl, he⟩ := hw.load_eq
  obtain ⟨-, e', rfl, he'⟩ := hw'.load_eq
  rw [he] at he'
  cases he'
  rfl

/-- A file can be opened and read and there is room for it, or something keeps it from being loaded. -/
lemma content_or_unloadable (h : Host) (path : Path) :
    (∃ size content, h.sizes path = .ok size ∧ size ≤ Memory.maxBuffer ∧ h.memory.grants size ∧
      h.files path = .ok content) ∨ ∃ words, h.Unloadable path words := by
  cases hsize : h.sizes path with
  | error fault => exact .inr ⟨_, .unopened hsize⟩
  | ok size =>
    by_cases hroom : size ≤ Memory.maxBuffer ∧ h.memory.grants size
    · obtain ⟨hmax, hgrant⟩ := hroom
      cases hread : h.files path with
      | error fault => exact .inr ⟨_, .unread hsize hmax hgrant hread⟩
      | ok content => exact .inl ⟨size, content, rfl, hmax, hgrant, rfl⟩
    · exact .inr ⟨_, .noRoom hsize hroom⟩

/-! ### Before a run -/

/-- A program that is given in one way is chosen, and nothing but the limits can be an obstacle then. -/
lemma Source.choose_eq {program : Program} {loaded : List Event} (hs : h.Source o program loaded)
    (name : String) : h.choose name o = .ok (program, loaded) ∧
      Obstacle.isThere h o .sources = false ∧ Obstacle.isThere h o .loading = false := by
  cases hs with
  | inline hc hf =>
    refine ⟨by simp only [choose, hc, hf], ?_, ?_⟩
    · simp [Obstacle.isThere, hc, hf]
    · simp [Obstacle.isThere, hf]
  | @file path size content hc hf hsize hmax hgrant hread =>
    obtain ⟨hcan, hload⟩ := load_of_content hsize hmax hgrant hread
    refine ⟨by simp only [choose, hc, hf, hload], ?_, ?_⟩
    · simp [Obstacle.isThere, hc, hf]
    · simp [Obstacle.isThere, hf, hcan]

/-- A program that is given in one way is run unless the limits cannot be settled. -/
lemma prepareWith_of_source {program : Program} {loaded : List Event}
    (hhelp : o.help = false) (hgreeting : o.greeting = false) (hs : h.Source o program loaded)
    (filter : Filter) (name : String) :
    (∃ x e, h.obstacle? o = some x ∧ h.prepareWith filter name o = .finished e ∧
      x.Answered h filter name o e) ∨
    (∃ program loaded limits events, h.obstacle? o = none ∧ h.Source o program loaded ∧
      Limits.resolve h.files h.environment o.tapeSize o.stackDepth = (.ok limits, events) ∧
      h.prepareWith filter name o = .ready ⟨name, filter, program, limits,
        loaded ++ events ++ [.limitsResolved limits program.size]⟩) := by
  obtain ⟨hchoose, hsources, hloading⟩ := hs.choose_eq name
  have hobstacle : h.obstacle? o = [Obstacle.limits].find? (Obstacle.isThere h o) := by
    have hhelp : Obstacle.isThere h o .help = false := hhelp
    have hgreeting : Obstacle.isThere h o .greeting = false := hgreeting
    simp [obstacle?, Obstacle.order, hhelp, hgreeting, hsources, hloading]
  rcases hr : Limits.resolve h.files h.environment o.tapeSize o.stackDepth with ⟨e | limits, events⟩
  · left
    refine ⟨.limits, _, ?_, ?_, .limits hs hr⟩
    · simp [hobstacle, Obstacle.isThere, hr, Except.isOk, Except.toBool]
    · simp [prepareWith, hhelp, hgreeting, hchoose, hr, Ending.refusal]
  · right
    refine ⟨program, loaded, limits, events, ?_, hs, rfl, ?_⟩
    · simp [hobstacle, Obstacle.isThere, hr, Except.isOk, Except.toBool]
    · simp [prepareWith, hhelp, hgreeting, hchoose, hr]

/-- **What comes before a run**: the first obstacle ends the invocation, and without one there is a
program to run. What is to be printed has to be read by somebody. -/
theorem prepareWith_cases (ho : o.help ∨ o.greeting → h.outputClosed = false) (filter : Filter)
    (name : String) :
    (∃ x e, h.obstacle? o = some x ∧ h.prepareWith filter name o = .finished e ∧
      x.Answered h filter name o e) ∨
    (∃ program loaded limits events, h.obstacle? o = none ∧ h.Source o program loaded ∧
      Limits.resolve h.files h.environment o.tapeSize o.stackDepth = (.ok limits, events) ∧
      h.prepareWith filter name o = .ready ⟨name, filter, program, limits,
        loaded ++ events ++ [.limitsResolved limits program.size]⟩) := by
  cases hhelp : o.help with
  | true =>
    refine Or.inl ⟨.help, _, ?_, ?_, .help⟩
    · simp [obstacle?, Obstacle.order, Obstacle.isThere, hhelp]
    · simp [prepareWith, hhelp, print, ho (Or.inl hhelp)]
  | false =>
  cases hgreeting : o.greeting with
  | true =>
    refine Or.inl ⟨.greeting, _, ?_, ?_, .greeting⟩
    · simp [obstacle?, Obstacle.order, Obstacle.isThere, hhelp, hgreeting]
    · simp [prepareWith, hhelp, hgreeting, print, ho (Or.inr hgreeting)]
  | false =>
  cases hc : o.code with
  | some code =>
    cases hf : o.file with
    | some path =>
      refine Or.inl ⟨.sources, _, ?_, ?_, .twoSources (by simp [hc]) (by simp [hf])⟩
      · simp [obstacle?, Obstacle.order, Obstacle.isThere, hhelp, hgreeting, hc, hf]
      · simp [prepareWith, hhelp, hgreeting, choose, hc, hf, Ending.refusal, Report.text]
    | none => exact prepareWith_of_source hhelp hgreeting (.inline hc hf) filter name
  | none =>
    cases hf : o.file with
    | none =>
      refine Or.inl ⟨.sources, _, ?_, ?_, .noSource hc hf⟩
      · simp [obstacle?, Obstacle.order, Obstacle.isThere, hhelp, hgreeting, hc, hf]
      · simp [prepareWith, hhelp, hgreeting, choose, hc, hf, Ending.refusal, Report.text]
    | some path =>
      obtain ⟨size, content, hsize, hmax, hgrant, hread⟩ | ⟨words, hwords⟩ :=
        h.content_or_unloadable path
      · exact prepareWith_of_source hhelp hgreeting (.file hc hf hsize hmax hgrant hread) filter name
      · obtain ⟨hno, e, rfl, hload⟩ := hwords.load_eq
        refine Or.inl ⟨.loading, _, ?_, ?_, .loading hf hwords⟩
        · simp [obstacle?, Obstacle.order, Obstacle.isThere, hhelp, hgreeting, hc, hf, hno]
        · simp [prepareWith, hhelp, hgreeting, choose, hc, hf, hload, Ending.refusal]

/-! ### What decides is determined -/

lemma Source.unique {program program' : Program} {loaded loaded' : List Event}
    (hs : h.Source o program loaded) (hs' : h.Source o program' loaded') :
    program = program' ∧ loaded = loaded' := by
  have h₁ := (hs.choose_eq "").1
  rw [(hs'.choose_eq "").1] at h₁
  cases h₁
  exact ⟨rfl, rfl⟩

end Host

/-- An obstacle is answered in one way. -/
lemma Obstacle.Answered.unique {h : Host} {filter : Filter} {name : String} {o : Options}
    {x : Obstacle} {e e' : Ending} (he : x.Answered h filter name o e)
    (he' : x.Answered h filter name o e') : e = e' := by
  cases he with
  | help | greeting =>
    cases he'
    rfl
  | twoSources hc hf =>
    cases he' with
    | twoSources => rfl
    | noSource hc' => simp [hc'] at hc
  | noSource hc hf =>
    cases he' with
    | twoSources hc' => simp [hc] at hc'
    | noSource => rfl
  | loading hf hwords =>
    cases he' with
    | loading hf' hwords' =>
      rw [hf] at hf'
      cases hf'
      rw [hwords.unique hwords']
  | limits hs hr =>
    cases he' with
    | limits hs' hr' =>
      obtain ⟨rfl, rfl⟩ := hs.unique hs'
      rw [hr] at hr'
      cases hr'
      rfl

/-- Limits that are settled violate no bound. -/
lemma Limits.violation?_of_resolve {files : Files} {env : Environment}
    {tapeSize stackDepth : Option Nat} {l : Limits} {events : List Event}
    (h : resolve files env tapeSize stackDepth = (.ok l, events)) : l.violation? = none := by
  unfold resolve at h
  split at h
  · simp only [Prod.mk.injEq] at h
    obtain ⟨hvalid, -⟩ := h
    unfold validate at hvalid
    split at hvalid
    · rename_i hv
      cases hvalid
      exact hv
    · cases hvalid
  · cases h

/-! ### Jobs -/

section Job

variable {job : Job} {c : Console} {r : Run} {outcome : Outcome}

/-- Within limits that allow a cell, the run of a job comes to the end of its program or fails. -/
lemma Job.done_or_failed (hl : 1 ≤ job.limits.tapeSize) (he : (job.start c).Ends r outcome) :
    outcome = .done ∨ ∃ f, outcome = .failed f :=
  Machine.Sound.done_or_failed (r := job.start c) (Machine.sound_new _ _) hl he

end Job

namespace Host

variable {h : Host} {filter : Filter} {name : String} {o : Options} {e : Ending}

/-! ### Invocations -/

lemma endsAs_of_finished (hp : h.prepareWith filter name o = .finished e) {e' : Ending} :
    h.EndsAs filter name o e' ↔ e' = e := by
  constructor
  · intro he
    cases he with
    | finished hp' =>
      rw [hp] at hp'
      cases hp'
      rfl
    | ran hp' =>
      rw [hp] at hp'
      cases hp'
  · rintro rfl
    exact .finished hp

lemma endsAs_of_ready {job : Job} (hp : h.prepareWith filter name o = .ready job) :
    h.EndsAs filter name o e ↔
      ∃ r outcome, (job.start h.console).Ends r outcome ∧ e = job.conclude r outcome := by
  constructor
  · intro he
    cases he with
    | finished hp' =>
      rw [hp] at hp'
      cases hp'
    | ran hp' hr =>
      rw [hp] at hp'
      cases hp'
      exact ⟨_, _, hr, rfl⟩
  · rintro ⟨r, outcome, hr, rfl⟩
    exact .ran hp hr

end Host

end Brainfuck
