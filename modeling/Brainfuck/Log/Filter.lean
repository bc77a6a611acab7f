import Brainfuck.Event
import Brainfuck.Log.Pattern

/-!
Log filters: which events are shown.

A filter is a list of directives, separated by commas. A directive may name a target, of which it
concerns all whose names begin that way, and a field that an event must have; of the directives
that concern an event, the one with the longest target decides, and of those with the same target
the one with the last field in the order of texts. A directive for spans concerns no event here.

White space around a directive is passed over while its parts are told apart, but the parts are
then taken from the whole text at the same distances from its beginning. So white space in front
shifts them, and it can make a part begin or end inside a character; such a text is no filter, and
there is no way to go on with it.
-/

namespace Brainfuck

/-- A reason why a text is no filter. -/
inductive FilterError where
  /-- A directive breaks a rule. -/
  | malformed
  /-- A part of a directive begins or ends inside a character. -/
  | splitCharacter
  deriving DecidableEq, Repr

/-- One rule of a filter: the events that it concerns and the least important level of them that
is shown, by rank; rank 0 shows nothing. -/
structure Directive where
  target : Option String
  field : Option String
  /-- Whether it concerns spans only, by their name or by the value of a field. -/
  spansOnly : Bool
  rank : Nat
  deriving DecidableEq, Repr

/-- A log filter. -/
structure Filter where
  directives : List Directive
  deriving DecidableEq, Repr

namespace Directive

/-! ### Levels -/

/-- The rank that a number stands for. -/
def rankOfNumber? (s : List Char) : Option Nat :=
  let ds := if s.head? = some '+' then s.drop 1 else s
  if ds.isEmpty || !ds.all Char.isDigit then none
  else
    let n := ds.foldl (fun acc c => acc * 10 + (c.toNat - 48)) 0
    if n ≤ 5 then some n else none

/-- The rank that a level's name stands for, in letters of either case. -/
def rankOfName? (s : List Char) : Option Nat :=
  match String.ofList (s.map Char.toLower) with
  | "error" => some 1
  | "warn" => some 2
  | "info" => some 3
  | "debug" => some 4
  | "trace" => some 5
  | "off" => some 0
  | _ => none

/-- The rank that a level stands for. -/
def rank? (s : List Char) : Option Nat := rankOfNumber? s <|> rankOfName? s

/-- The rank that shows everything. -/
def lowestRank : Nat := 5

/-! ### Parts of a text -/

/-- The number of bytes of a text. -/
def byteCount (s : List Char) : Nat := s.foldr (fun c n => c.utf8Size + n) 0

/-- A text without its first `n` bytes. -/
def dropBytes : Nat → List Char → Except FilterError (List Char)
  | 0, s => .ok s
  | _ + 1, [] => .ok []
  | n + 1, c :: s =>
    if c.utf8Size ≤ n + 1 then dropBytes (n + 1 - c.utf8Size) s else .error .splitCharacter

/-- The first `n` bytes of a text. -/
def takeBytes : Nat → List Char → Except FilterError (List Char)
  | 0, _ => .ok []
  | _ + 1, [] => .ok []
  | n + 1, c :: s =>
    if c.utf8Size ≤ n + 1 then return c :: (← takeBytes (n + 1 - c.utf8Size) s)
    else .error .splitCharacter

/-- The part of a text between two distances from its beginning, in bytes. -/
def cut (text : List Char) (start stop : Nat) : Except FilterError (List Char) := do
  takeBytes (stop - start) (← dropBytes start text)

/-! ### Reading a directive

The functions here are given the whole text, from which parts are cut, and `rest`, what has not
yet been looked at of the text without the white space around it; `start` is the distance of
`rest` from the beginning of that. -/

/-- The rank in the rest of a text; where there is none, everything is shown. -/
def level (text : List Char) (start : Nat) : Except FilterError Nat := do
  let name ← dropBytes start text
  if name.isEmpty then return lowestRank
  match rank? name with
  | some rank => return rank
  | none => .error .malformed

/-- The rank after a scope. -/
def levelAfterScope (text : List Char) (start : Nat) (rest : List Char) :
    Except FilterError Nat :=
  match rest with
  | [] => .ok lowestRank
  | '=' :: _ => level text (start + 1)
  | _ => .error .malformed

/-- The name of a field, and whether a value of it is asked for. -/
def fieldTest (s : List Char) : Except FilterError (String × Bool) :=
  let name := s.takeWhile (· ≠ '=')
  match s.drop name.length with
  | [] => if name.isEmpty then .error .malformed else .ok (String.ofList name, false)
  | _ :: value =>
    if Pattern.isValue (value.takeWhile (· ≠ '=')) then .ok (String.ofList name, true)
    else .error .malformed

/-- A directive from its scope on, after the bracket: the name of a span, or in braces a field, or
both. -/
def withScope (target : Option String) (text : List Char) (start : Nat) (rest : List Char) :
    Except FilterError Directive := do
  let span := rest.takeWhile fun c => c ≠ ']' && c ≠ '{'
  let stop := start + byteCount span
  match rest.drop span.length with
  | ']' :: rest =>
    let _ ← cut text start stop
    return ⟨target, none, true, ← levelAfterScope text (stop + 1) rest⟩
  | '{' :: rest =>
    let _ ← cut text start stop
    let field := rest.takeWhile (· ≠ '}')
    let start := stop + 1
    let stop := start + byteCount field
    match rest.drop field.length with
    | '}' :: rest =>
      let (name, valued) ← fieldTest (← cut text start stop)
      match rest with
      | ']' :: rest =>
        let rank ← levelAfterScope text (stop + 2) rest
        return ⟨target, some name, valued || !span.isEmpty, rank⟩
      | _ => .error .malformed
    | _ => .error .malformed
  | _ => .error .malformed

/-- A text without the white space at its ends. -/
def trim (s : List Char) : List Char :=
  ((s.dropWhile CharClass.isSpace).reverse.dropWhile CharClass.isSpace).reverse

/-- Whether a directive may begin with a character, other than with a scope. -/
def isStart (c : Char) : Bool := c = '-' || c = ':' || c = '_' || CharClass.isAlphanumeric c

/-- A directive. Without any of its marks it is a level or a target. -/
def parse (text : List Char) : Except FilterError Directive := do
  match trim text with
  | [] => .error .malformed
  | '[' :: rest => withScope none text 1 rest
  | c :: rest =>
    if !isStart c then .error .malformed
    else
      let name := c :: rest.takeWhile fun c => c ≠ '=' && c ≠ '['
      let size := byteCount name
      match (c :: rest).drop name.length with
      | '=' :: _ =>
        let target ← cut text 0 size
        return ⟨some (String.ofList target), none, false, ← level text (size + 1)⟩
      | '[' :: rest =>
        let target ← cut text 0 size
        withScope (some (String.ofList target)) text (size + 1) rest
      | _ =>
        match rank? text with
        | some rank => return ⟨none, none, false, rank⟩
        | none => return ⟨some (String.ofList text), none, false, lowestRank⟩

/-! ### Choosing a directive -/

/-- Whether a directive concerns an event. -/
def concerns (d : Directive) (e : Event) : Bool :=
  !d.spansOnly &&
  d.target.all (fun target => target.toList.isPrefixOf e.target.toList) &&
  d.field.all (fun field => e.fields.contains field)

/-- How long the target of a directive is; no target is shorter than any. -/
def targetSize (d : Directive) : Nat := (d.target.map (·.utf8ByteSize + 1)).getD 0

/-- Whether the field of a directive comes after that of another, or is the same. -/
def fieldYields (a b : Directive) : Bool :=
  match a.field, b.field with
  | none, _ => true
  | some _, none => false
  | some x, some y => !(y < x)

/-- Whether the second of two directives decides where both concern an event. -/
def yields (a b : Directive) : Bool :=
  a.targetSize < b.targetSize || (a.targetSize = b.targetSize && a.fieldYields b)

end Directive

namespace Filter

/-- The filter that shows warnings and errors. -/
def warnings : Filter := ⟨[⟨none, none, false, 2⟩]⟩

/-- The filter that shows errors only. -/
def errors : Filter := ⟨[⟨none, none, false, 1⟩]⟩

/-- The pieces between commas that are not empty. -/
def pieces (s : List Char) : List (List Char) :=
  (split s).filter (!·.isEmpty)
where
  /-- The pieces between commas. -/
  split : List Char → List (List Char)
    | [] => [[]]
    | c :: rest =>
      if c = ',' then [] :: split rest
      else
        match split rest with
        | [] => [[c]]
        | piece :: pieces => (c :: piece) :: pieces

/-- The filter that a text describes. A text without directives shows errors only. -/
def parse (s : String) : Except FilterError Filter := do
  let directives ← (pieces s.toList).mapM Directive.parse
  if directives.isEmpty then return errors
  return ⟨directives⟩

/-- The filter that a setting describes, if it is possible to go on with it; where it is not given
or breaks a rule, warnings and errors are shown. -/
def ofSetting? (setting : Option String) : Option Filter :=
  match setting.map parse with
  | none | some (.error .malformed) => some warnings
  | some (.ok f) => some f
  | some (.error .splitCharacter) => none

/-- The directive that decides on an event. -/
def deciding? (f : Filter) (e : Event) : Option Directive :=
  (f.directives.filter (·.concerns e)).foldl (fun best d =>
    match best with
    | none => some d
    | some b => if b.yields d then some d else some b) none

/-- Whether an event is shown. -/
def shows (f : Filter) (e : Event) : Bool :=
  match f.deciding? e with
  | some d => e.level.rank ≤ d.rank
  | none => false

end Filter

end Brainfuck
