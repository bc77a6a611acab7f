import Brainfuck.Invocation

/-!
The command line: the tool in its real surroundings.

The files that the invocation may read are read beforehand. A run is brought forward one
instruction at a time, and its channels are given the next byte, or the fate of the next write,
when the machine asks for it.
-/

namespace Brainfuck

/-- The names in the environment that matter to the tool. -/
def environmentNames : List String :=
  ["HOME", "XDG_CONFIG_HOME", "BF_TAPE_SIZE", "BF_STACK_DEPTH", "BF_LOG"]

/-- The environment of the process. -/
def readEnvironment : IO Environment :=
  environmentNames.filterMapM fun name => do
    return (← IO.getEnv name).map fun value => (name, Utf8.encode value)

/-- The fault that an error of the system stands for. -/
def faultOf : IO.Error → Fault
  | .noFileOrDirectory .. => .noSuchFile
  | .inappropriateType _ code _ => if code = 20 then .notADirectory else .isADirectory
  | .permissionDenied .. => ⟨.permissionDenied, some "Permission denied (os error 13)"⟩
  | .resourceVanished .. => .brokenPipe
  | .resourceExhausted .. => ⟨.storageFull, some "No space left on device (os error 28)"⟩
  | .interrupted .. => ⟨.interrupted, none⟩
  | e => ⟨.other, some (toString e)⟩

/-- The content of a file of the system. -/
def readFile (path : Path) : IO (Except Fault ByteArray) := do
  try
    return .ok (← IO.FS.readBinFile path.text)
  catch e =>
    return .error (faultOf e)

/-- The files at the given paths. -/
def readFiles (paths : List Path) : IO Files := do
  let contents ← paths.mapM fun path => return (path, ← readFile path)
  return fun path => (contents.lookup path).getD (.error .noSuchFile)

/-- One byte of the standard input. -/
def readByte (input : IO.FS.Stream) : IO Delivery := do
  try
    let bytes ← input.read 1
    return match bytes.toList with
      | b :: _ => .byte b
      | [] => .eof
  catch e =>
    return .fault (faultOf e)

/-- One byte to the standard output. -/
def writeByte (output : IO.FS.Stream) (b : UInt8) : IO WriteFate := do
  try
    output.write ⟨#[b]⟩
    output.flush
    return .accept
  catch e =>
    return .fault (faultOf e)

/-- Brings a run to its end and prints what it logs on the way. -/
partial def drive (input output errors : IO.FS.Stream) (filter : Filter) (r : Run) :
    IO Outcome := do
  let r ← match r.machine.next with
    | .accept => do
      let delivery ← readByte input
      pure { r with console := { r.console with input := [delivery] } }
    | .emit b => do
      let fate ← writeByte output b
      pure { r with console := { r.console with writeFates := [fate], output := .empty } }
    | _ => pure r
  let say (r : Run) : IO Unit := do
    unless r.log.isEmpty do errors.putStr (Report.text (filter.lines r.log.toList))
  match r.advance with
  | .running r =>
    say r
    drive input output errors filter { r with log := #[] }
  | .ended r outcome =>
    say r
    return outcome

/-- The tool, in the given surroundings. -/
def runTool (h : Host) : IO UInt32 := do
  let input ← IO.getStdin
  let output ← IO.getStdout
  let errors ← IO.getStderr
  match h.prepare with
  | .finished ending =>
    errors.putStr ending.errors
    try
      output.write ending.output
      output.flush
      return UInt32.ofNat ending.status.code
    catch _ =>
      let ending := Ending.abort h.runtime .unreadOutput
      errors.putStr ending.errors
      return UInt32.ofNat ending.status.code
  | .ready job =>
    errors.putStr (Report.text (job.filter.lines job.events))
    let outcome ← drive input output errors job.filter (job.start h.console)
    errors.putStr (Report.text (job.report outcome))
    return UInt32.ofNat (Job.status outcome).code

end Brainfuck

open Brainfuck in
/-- The tool. -/
def main (args : List String) : IO UInt32 := do
  let environment ← readEnvironment
  let arguments := args.map Utf8.encode
  let paths := match Options.parse environment arguments with
    | .ok o => o.neededFiles environment
    | .error _ => []
  runTool
    { name := Utf8.encode "bf", arguments, environment, files := ← readFiles paths, input := [],
      outputClosed := false }
