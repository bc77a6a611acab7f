import Brainfuck.Fault

/-!
Mishaps: what the tool does not foresee. Where it meets one it stops at once, and a report says in which
process that was, at which place and for what reason.

The place lies in one of the libraries that the tool is built with, and the reason is in the words of that
library. So both belong to the surroundings of the tool (`Runtime`); where they are not told, it is as
described here.
-/

namespace Brainfuck

/-- Something that the tool does not foresee. -/
inductive Mishap where
  /-- A part of the log filter begins or ends inside a character. -/
  | splitFilter
  /-- The name under which the tool was called is not UTF-8. -/
  | unreadableName
  /-- A text is to be printed, and nobody reads the standard output. -/
  | unreadOutput
  deriving DecidableEq, Repr

namespace Mishap

/-- Where a mishap is noticed, if nothing else is told. -/
def place : Mishap → String
  | splitFilter => "the log filter"
  | unreadableName => "the program name"
  | unreadOutput =>
    "/rustc/b940084d7eb6a299eb4bfeb8e34901bc051e7ac4/library/std/src/io/stdio.rs:1168:9"

/-- What is said of a mishap, if nothing else is told. -/
def words : Mishap → String
  | splitFilter => "a part of the filter begins or ends inside a character"
  | unreadableName => "the name is not UTF-8"
  | unreadOutput => s!"failed printing to stdout: {Fault.brokenPipe.text}"

end Mishap

/-- What the report of a mishap shows of the process and of the libraries. -/
structure Runtime where
  /-- The number of the process; it is a small one where few others run. -/
  process : Nat := 4
  place : Mishap → String := Mishap.place
  words : Mishap → String := Mishap.words
  deriving Inhabited

/-- The report of a mishap. -/
def Runtime.report (r : Runtime) (m : Mishap) : String :=
  s!"\nthread 'main' ({r.process}) panicked at {r.place m}:\n{r.words m}\n" ++
    "note: run with `RUST_BACKTRACE=1` environment variable to display a backtrace\n"

end Brainfuck
