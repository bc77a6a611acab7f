import Brainfuck.Event
import Brainfuck.Files.Basic
import Brainfuck.Limits.Document
import Brainfuck.Toml.Document

/-!
Where the limits of a run come from: the defaults, the configuration file, and what the caller
gives, each before the one that it yields to.

The file is read before anything that the caller gives is looked at, so a broken file is reported
even where no value of it would be used. The bounds are checked last, on the limits as they will be
used.
-/

namespace Brainfuck

/-- A reason why limits cannot be settled. -/
inductive LimitsError where
  /-- The configuration file cannot be read. -/
  | unreadable (path : Path) (fault : Fault)
  /-- The configuration file is no document. -/
  | malformed (path : Path)
  /-- The configuration file is a document that gives no limits. -/
  | misfit (path : Path) (cause : Misfit)
  /-- The limits are out of bounds. -/
  | invalid (reason : String)

/-- The text of an error. -/
def LimitsError.message : LimitsError → String
  | .unreadable path fault => s!"failed to read config file '{path.text}': {fault.text}"
  | .malformed path => s!"failed to parse config file '{path.text}': malformed document"
  | .misfit path cause => s!"failed to parse config file '{path.text}': {cause.message}"
  | .invalid reason => s!"invalid configuration: {reason}"

/-- The environment: names with their values, of which the last one given counts. -/
abbrev Environment := List (String × List UInt8)

namespace Environment

/-- The value of a name. -/
def get? (env : Environment) (name : String) : Option (List UInt8) :=
  (env.reverse.find? fun entry => entry.1 == name).map (·.2)

/-- The value of a name, if it is text. -/
def text? (env : Environment) (name : String) : Option String :=
  (env.get? name).bind Utf8.decode?

end Environment

namespace Limits

/-- The name of the configuration file. -/
def fileName : String := "bf.toml"

/-- The home directory. An empty name names none. -/
def home? (env : Environment) : Option Path :=
  match env.get? "HOME" with
  | none | some [] => none
  | some home => some ⟨home⟩

/-- The path of the configuration file: in the directory for configuration, which lies in the home
directory unless the environment says otherwise. -/
def filePath? (env : Environment) : Option Path :=
  match env.text? "XDG_CONFIG_HOME" with
  | some directory => some ((Path.ofString directory).join fileName)
  | none => (home? env).map fun home => (home.join ".config").join fileName

/-- The limits that the content of a configuration file gives. -/
def ofContent (path : Path) (content : ByteArray) : Except LimitsError Limits :=
  match Utf8.decode? content.toList with
  | none => .error (.unreadable path .notUtf8)
  | some text =>
    match Toml.parse text with
    | none => .error (.malformed path)
    | some entries =>
      match ofDocument entries with
      | .ok l => .ok l
      | .error cause => .error (.misfit path cause)

/-- The limits that a configuration file gives, and what is logged about it. A file that is not
there gives the defaults and is not logged. -/
def load (files : Files) (path : Path) : Except LimitsError (Limits × List Event) :=
  match files path with
  | .ok content => do
    let l ← ofContent path content
    return (l, [.limitsLoaded path.text l])
  | .error fault =>
    if fault.cause = .notFound then .ok ({}, []) else .error (.unreadable path fault)

/-- The limits, if they violate no bound. -/
def validate (l : Limits) : Except LimitsError Limits :=
  match l.violation? with
  | none => .ok l
  | some v => .error (.invalid v.text)

/-- The limits below those that the caller gives, and what is logged about them. -/
def base (files : Files) (env : Environment) : Except LimitsError (Limits × List Event) :=
  match filePath? env with
  | some path => load files path
  | none => .ok ({}, [])

/-- The limits of a run, and what is logged on the way to them. -/
def resolve (files : Files) (env : Environment) (tapeSize stackDepth : Option Nat) :
    Except LimitsError Limits × List Event :=
  match base files env with
  | .ok (l, events) => ((l.override tapeSize stackDepth).validate, events)
  | .error e => (.error e, [])

end Limits

end Brainfuck
