import Brainfuck.Limits.Resolve
import Brainfuck.Loading
import Brainfuck.Log.Filter
import Brainfuck.Mishap
import Brainfuck.Options
import Brainfuck.Report
import Brainfuck.Run
import Brainfuck.Usage

/-!
An invocation of the tool: from a command line and its surroundings to an exit status and what is
printed.

Everything up to the run is decided first (`Host.prepare`): help, greeting, the choice of a
program, its loading and the limits, in that order. What is left then is a job, that is a program
with its limits, and how a run of it is reported (`Job.conclude`).
-/

namespace Brainfuck

/-- The surroundings of an invocation. -/
structure Host where
  /-- The name under which the tool was called. -/
  name : List UInt8
  /-- The arguments after that name. -/
  arguments : List (List UInt8)
  environment : Environment
  files : Files
  /-- What reads of the standard input deliver. -/
  input : List Delivery
  /-- Whether the standard output is a pipe that nobody reads. -/
  outputClosed : Bool
  sizes : Sizes := files.sizes
  memory : Memory := .ample
  runtime : Runtime := {}
  deriving Inhabited

/-- How an invocation ends. -/
inductive Status where
  /-- What was asked for was done. -/
  | success
  /-- The command line, a file or the limits are at fault; no program was run. -/
  | refused
  /-- The run failed. -/
  | failed
  /-- The tool gave up in a way that it does not foresee. -/
  | aborted
  deriving DecidableEq, Repr

/-- The exit code of a status. -/
def Status.code : Status → Nat
  | .success => 0
  | .refused => 1
  | .failed => 255
  | .aborted => 101

/-- The end of an invocation: its status and what was printed. -/
structure Ending where
  status : Status
  output : ByteArray
  errors : String

/-- A program to run, with what is needed to report on the run. -/
structure Job where
  name : String
  filter : Filter
  program : Program
  limits : Limits
  /-- The events before the run. -/
  events : List Event

/-- What an invocation comes to before any program is run. -/
inductive Preparation where
  /-- The invocation is at its end. -/
  | finished (ending : Ending)
  /-- There is a program to run. -/
  | ready (job : Job)

/-- The files that an invocation with the given options may read, in that order. -/
def Options.neededFiles (o : Options) (env : Environment) : List Path :=
  if o.help || o.greeting then []
  else
    match o.code, o.file with
    | some _, none => (Limits.filePath? env).toList
    | none, some path => path :: (Limits.filePath? env).toList
    | _, _ => []

namespace Filter

/-- The lines that a filter shows of some events. -/
def lines (f : Filter) (events : List Event) : List String :=
  (events.filter f.shows).map Event.line

/-- Whether a filter shows executed instructions. -/
def traces (f : Filter) : Bool := f.shows (.executed 0 0 0 0 .right)

end Filter

namespace Ending

/-- An invocation that is refused, after some lines on the error channel. -/
def refusal (lines : List String) (usage : String) : Ending :=
  ⟨.refused, ByteArray.empty, Report.text lines ++ usage⟩

/-- An invocation that ends with a mishap. -/
def abort (r : Runtime) (m : Mishap) : Ending := ⟨.aborted, ByteArray.empty, r.report m⟩

end Ending

namespace Host

/-- The filter of log events, if it is possible to go on with the one that is set. -/
def filter? (h : Host) : Option Filter := Filter.ofSetting? (h.environment.text? "BF_LOG")

/-- An invocation that only prints a text. There is no way to report that nobody reads it. -/
def print (h : Host) (text : String) : Ending :=
  if h.outputClosed then .abort h.runtime .unreadOutput
  else ⟨.success, text.toUTF8, ""⟩

/-- The program that options choose, and what is logged about it; or the end of the invocation. -/
def choose (h : Host) (name : String) (o : Options) : Except Ending (Program × List Event) :=
  match o.code, o.file with
  | some _, some _ =>
    .error (.refusal [s!"{name}: cannot use -c together with a file"] (Usage.text name))
  | some code, none => .ok (.ofBytes code.toUTF8, [])
  | none, some path =>
    match Program.load h.files path h.sizes h.memory with
    | .ok loaded => .ok loaded
    | .error e => .error (.refusal [s!"{name}: Error: {e.message}"] "")
  | none, none => .error (.refusal [] (Usage.text name))

/-- What options come to before any program is run. -/
def prepareWith (h : Host) (filter : Filter) (name : String) (o : Options) : Preparation :=
  if o.help then .finished (h.print (Usage.text name))
  else if o.greeting then .finished (h.print Usage.greeting)
  else
    match h.choose name o with
    | .error ending => .finished ending
    | .ok (program, loaded) =>
      match Limits.resolve h.files h.environment o.tapeSize o.stackDepth with
      | (.error e, events) =>
        let shown := filter.lines (loaded ++ events)
        .finished (.refusal (shown ++ [s!"{name}: {e.message}"]) "")
      | (.ok limits, events) =>
        let events := loaded ++ events ++ [.limitsResolved limits program.size]
        .ready ⟨name, filter, program, limits, events⟩

/-- What an invocation comes to before any program is run. -/
def prepare (h : Host) : Preparation :=
  match h.filter? with
  | none => .finished (.abort h.runtime .splitFilter)
  | some filter =>
    match Utf8.decode? h.name with
    | none => .finished (.abort h.runtime .unreadableName)
    | some name =>
      match Options.parse h.environment h.arguments with
      | .error e => .finished (.refusal [s!"{name}: {e.message}"] (Usage.text name))
      | .ok o => h.prepareWith filter name o

/-- The channels of a run. -/
def console (h : Host) : Console :=
  .ofScripts h.input (if h.outputClosed then [.fault .brokenPipe] else []) []

end Host

namespace Job

/-- The run of a job, at its beginning. -/
def start (j : Job) (console : Console) : Run :=
  Run.start (Machine.new j.program j.limits) console j.filter.traces

/-- The status that the outcome of a run gives. -/
def status : Outcome → Status
  | .done => .success
  | .failed _ => .failed
  | .crashed => .aborted

/-- The report of an outcome. -/
def report (j : Job) : Outcome → List String
  | .done => []
  | .failed failure => Report.ofFailure (some j.name) j.program failure
  | .crashed => ["index out of bounds"]

/-- The end of an invocation whose run has ended. -/
def conclude (j : Job) (r : Run) (outcome : Outcome) : Ending :=
  { status := status outcome
    output := r.console.output
    errors := Report.text (j.filter.lines (j.events ++ r.log.toList) ++ j.report outcome) }

end Job

/-- The end of an invocation, if its run ends within `fuel` instructions. -/
def Host.runFor (h : Host) (fuel : Nat) : Option Ending :=
  match h.prepare with
  | .finished ending => some ending
  | .ready job =>
    match (job.start h.console).iterate fuel with
    | .running _ => none
    | .ended r outcome => some (job.conclude r outcome)

end Brainfuck
