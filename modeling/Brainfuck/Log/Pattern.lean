import Brainfuck.Text.CharClass
import Brainfuck.Text.Scan

/-!
Patterns: regular expressions for the values of fields, as far as it is asked whether a text is
one.

A pattern is read from left to right. What has been read of the groups that are open is kept as a
stack of them; of each expression only is kept how deep it nests, which is bounded. Properties of
characters are known within ASCII only. So classes such as `\d`, the edges of words and the
disregard of letter case need the ASCII mode, which the flag `u` switches off and on, and in which
nothing may match a part of a character. Patterns stand between braces, and none can hold a
closing brace; what would need one is refused.
-/

namespace Brainfuck.Pattern

/-- The flags of a pattern that bear on its form. -/
structure Flags where
  /-- Letter case is disregarded. -/
  caseless : Bool := false
  /-- Characters are taken as such, and not as bytes. -/
  unicode : Bool := true
  /-- White space and comments in the pattern are passed over. -/
  spaced : Bool := false
  deriving DecidableEq, Repr

/-- The flags after those that a text switches on and, after a minus sign, off. -/
def Flags.apply (f : Flags) (text : List Char) : Flags :=
  let on := text.takeWhile (· ≠ '-')
  let off := text.drop on.length
  let switched (c : Char) (old : Bool) : Bool := on.contains c || (old && !off.contains c)
  ⟨switched 'i' f.caseless, switched 'u' f.unicode, switched 'x' f.spaced⟩

/-- Whether a text between a question mark and the end of the flags is a list of flags. -/
def isFlagText (text : List Char) : Bool :=
  text.all "imsUuRx-".toList.contains && text.Nodup && text.getLast? ≠ some '-'

/-! ### White space and comments -/

/-- A text without the white space and the comments that it begins with. -/
def dropSpace (comment : Bool) : List Char → List Char
  | [] => []
  | c :: rest =>
    if comment then dropSpace (c ≠ '\n') rest
    else if CharClass.isSpace c then dropSpace false rest
    else if c = '#' then dropSpace true rest
    else c :: rest

/-- What is passed over. -/
def space (f : Flags) : Scan Unit := fun input =>
  some ((), if f.spaced then dropSpace false input else input)

/-- The character that decides whether a hyphen makes a range: the next one, white space passed
over. -/
def afterHyphen? (f : Flags) (rest : List Char) : Option Char :=
  if f.spaced then
    match rest.dropWhile CharClass.isSpace with
    | '#' :: comment => (comment.dropWhile CharClass.isSpace).head? <|> rest.head?
    | [] => rest.head?
    | c :: _ => some c
  else rest.head?

/-! ### Single characters -/

/-- What stands for a character, a class of characters or a place. -/
inductive Atom where
  /-- A character; `byte` says that it is given by a code of two digits. -/
  | char (c : Char) (byte : Bool)
  /-- A class of characters. -/
  | charClass (negated : Bool)
  /-- An edge of a word, or a place that is none. -/
  | wordEdge
  /-- An end of the text. -/
  | textEnd
  deriving DecidableEq, Repr

/-- Whether an atom can stand for itself. -/
def Atom.isExpression (f : Flags) : Atom → Bool
  | .char c byte => if f.unicode then !f.caseless else !byte || c.toNat < 0x80
  | .charClass negated => !f.unicode && !negated
  | .wordEdge => !f.unicode
  | .textEnd => true

/-- Whether an atom can stand in brackets. -/
def Atom.isMember (f : Flags) : Atom → Bool
  | .char c _ => if f.unicode then !f.caseless else c.toNat < 0x80
  | .charClass negated => !f.unicode && !negated
  | .wordEdge | .textEnd => false

/-- The character whose code is given by exactly `n` hexadecimal digits. -/
def code (f : Flags) (n : Nat) : Scan Char := do
  let digits ← (List.replicate n ()).mapM fun _ => do
    space f
    Scan.satisfy fun c => (CharClass.hexDigit? c).isSome
  match CharClass.ofHexDigits? digits with
  | some c => return c
  | none => failure

/-- What a backslash makes of the text after it. -/
def escape (f : Flags) : Scan Atom := do
  match ← Scan.next with
  | 'x' => return .char (← code f 2) true
  | 'u' => return .char (← code f 4) false
  | 'U' => return .char (← code f 8) false
  | 'd' | 's' | 'w' => return .charClass false
  | 'D' | 'S' | 'W' => return .charClass true
  | 'b' | 'B' | '<' | '>' => return .wordEdge
  | 'A' | 'z' => return .textEnd
  | 'a' => return .char '\x07' false
  | 'f' => return .char '\x0c' false
  | 'n' => return .char '\n' false
  | 'r' => return .char '\r' false
  | 't' => return .char '\t' false
  | 'v' => return .char '\x0b' false
  | c => if c.toNat < 0x80 && !c.isAlphanum then return .char c false else failure

/-! ### Depth -/

/-- How deep a sequence of expressions nests that nest as deep as given. -/
def sequenceDepth : List Nat → Nat
  | [] => 0
  | [d] => d
  | d :: ds => 1 + ds.foldl max d

/-- How deep a pattern may nest. -/
def maxDepth : Nat := 250

/-! ### Brackets -/

/-- The set in a pair of brackets, as far as it is read. -/
structure CharSet where
  /-- How deep the sets before the last operator nest, if there is one. -/
  left : Option Nat := none
  /-- How deep the members after it nest, the last first. -/
  members : List Nat := []

namespace CharSet

/-- How deep a set nests. -/
def depth (s : CharSet) : Nat :=
  match s.left with
  | none => sequenceDepth s.members
  | some d => 1 + max d (sequenceDepth s.members)

/-- The set with one more member. -/
def add (s : CharSet) (d : Nat) : CharSet := { s with members := d :: s.members }

/-- The set before an operator. -/
def operate (s : CharSet) : CharSet := ⟨some s.depth, []⟩

end CharSet

/-- The names of classes in brackets. -/
def classNames : List String :=
  ["alnum", "alpha", "ascii", "blank", "cntrl", "digit", "graph", "lower", "print", "punct",
   "space", "upper", "word", "xdigit"]

/-- A named class in brackets, with its own brackets; whether it is negated. -/
def namedClass : Scan Bool := do
  Scan.word "[:"
  let negated ← Scan.optional? (Scan.char '^')
  let name ← Scan.takeWhile (· ≠ ':')
  Scan.word ":]"
  if classNames.contains (String.ofList name) then return negated.isSome else failure

/-- An atom in brackets. -/
def setAtom (f : Flags) : Scan Atom := do
  match ← Scan.next with
  | '\\' => escape f
  | c => return .char c false

/-- A member of a set, or a range of members. -/
def member (f : Flags) : Scan Unit := do
  let first ← setAtom f
  space f
  let input ← get
  let isRange := match input with
    | '-' :: rest =>
      let after := afterHyphen? f rest
      after ≠ some ']' && after ≠ some '-'
    | _ => false
  unless first.isMember f do failure
  if isRange then
    Scan.char '-'
    space f
    let last ← setAtom f
    unless last.isMember f do failure
    match first, last with
    | .char a _, .char b _ => if b < a then failure
    | _, _ => failure

/-- The beginning of a set, after its bracket. Hyphens there are members, and so is a closing
bracket if it is the first. -/
def openSet (f : Flags) : Scan CharSet := do
  space f
  let negated ← Scan.optional? (Scan.char '^')
  if negated.isSome && !f.unicode then failure
  space f
  let hyphens ← Scan.many (Scan.char '-' <* space f)
  let bracket ← if hyphens.isEmpty then Scan.optional? (Scan.char ']') else pure none
  if (!hyphens.isEmpty || bracket.isSome) && !(Atom.char '-' false).isMember f then failure
  return ⟨none, hyphens.map (fun _ => 0) ++ (bracket.map fun _ => 0).toList⟩

/-- The rest of a set that stands in the sets `outer`, the nearest first: how deep the whole
nests. Each round reads a character at least, so there are no more rounds than there are characters
in `fuel`. -/
def setRest (f : Flags) (outer : List CharSet) (s : CharSet) : List Char → Scan Nat
  | [] => failure
  | _ :: fuel => do
    space f
    match ← get with
    | [] => failure
    | '[' :: _ =>
      match ← Scan.optional? namedClass with
      | some negated =>
        if f.unicode && f.caseless || !f.unicode && negated then failure
        setRest f outer (s.add 0) fuel
      | none =>
        Scan.char '['
        let inner ← openSet f
        setRest f (s :: outer) inner fuel
    | ']' :: _ =>
      Scan.char ']'
      match outer with
      | [] => return 1 + s.depth
      | around :: outer => setRest f outer (around.add (1 + s.depth)) fuel
    | '&' :: '&' :: rest | '-' :: '-' :: rest | '~' :: '~' :: rest =>
      set rest
      setRest f outer s.operate fuel
    | _ =>
      member f
      setRest f outer (s.add 0) fuel

/-- A set, after its bracket: how deep it nests. -/
def charSet (f : Flags) : Scan Nat := do
  let s ← openSet f
  setRest f [] s (← get)

/-! ### Groups -/

/-- A group, as far as it is read. -/
structure Group where
  /-- How deep the alternatives nest that are read. -/
  alternatives : List Nat := []
  /-- How deep the items of the next alternative nest, the last first; an item that only sets
  flags is `none`. -/
  items : List (Option Nat) := []

namespace Group

/-- How deep the alternative that is being read nests. -/
def itemsDepth (g : Group) : Nat := sequenceDepth (g.items.map (·.getD 0))

/-- How deep a group nests inside. -/
def depth (g : Group) : Nat := sequenceDepth (g.itemsDepth :: g.alternatives)

/-- The group with one more item. -/
def add (g : Group) (item : Option Nat) : Group := { g with items := item :: g.items }

/-- The group at the beginning of its next alternative. -/
def alternate (g : Group) : Group := ⟨g.itemsDepth :: g.alternatives, []⟩

end Group

/-- A pattern, as far as it is read. -/
structure Reader where
  flags : Flags := {}
  /-- The names of the groups that have one. -/
  names : List (List Char) := []
  group : Group := {}
  /-- The groups around that one, the nearest first, each with its flags. -/
  outer : List (Flags × Group) := []

namespace Reader

/-- The reader after an item. -/
def add (r : Reader) (item : Option Nat) : Reader := { r with group := r.group.add item }

/-- The reader in a new group with the given flags. -/
def enter (r : Reader) (flags : Flags) : Reader :=
  { r with flags, group := {}, outer := (r.flags, r.group) :: r.outer }

/-- Whether a character may stand in the name of a group. -/
def isNameChar (c : Char) : Bool :=
  c = '_' || c = '.' || c = '[' || c = ']' || CharClass.isAlphanumeric c

/-- Whether a text may name a group. -/
def isName (name : List Char) : Bool :=
  match name with
  | [] => false
  | c :: rest => (c = '_' || CharClass.isLetter c) && rest.all isNameChar

/-- The beginning of a group, after its parenthesis, or a setting of flags. -/
def opened (r : Reader) : Scan Reader := do
  space r.flags
  match ← Scan.optional? (Scan.word "?P<" <|> Scan.word "?<") with
  | some _ =>
    let name ← Scan.takeWhile (· ≠ '>')
    Scan.char '>'
    if isName name && !r.names.contains name then
      return { r with names := name :: r.names }.enter r.flags
    else failure
  | none =>
    match ← Scan.optional? (Scan.char '?') with
    | none => return r.enter r.flags
    | some _ =>
      let text ← Scan.takeWhile fun c => c ≠ ':' && c ≠ ')'
      unless isFlagText text do failure
      let flags := r.flags.apply text
      if (← Scan.next) = ':' then return r.enter flags
      else if text.isEmpty then failure
      else return { r with flags }.add none

/-- The end of a group. -/
def closed (r : Reader) : Scan Reader :=
  match r.outer with
  | [] => failure
  | (flags, around) :: outer =>
    return { r with flags, group := around.add (some (1 + r.group.depth)), outer }

/-- A repetition of the last item, whose mark a question mark may follow. -/
def repeated (r : Reader) : Scan Reader := do
  match r.group.items with
  | some d :: items =>
    let _ ← Scan.optional? (Scan.char '?')
    return { r with group := { r.group with items := some (1 + d) :: items } }
  | _ => failure

/-- An atom as an item. -/
def atom (r : Reader) (a : Atom) : Scan Reader :=
  if a.isExpression r.flags then return r.add (some 0) else failure

/-- The next item, or the beginning or end of a group or of an alternative. -/
def element (r : Reader) : Scan Reader := do
  match ← Scan.next with
  | '(' => r.opened
  | ')' => r.closed
  | '|' => return { r with group := r.group.alternate }
  | '[' => return r.add (some (← charSet r.flags))
  | '?' | '*' | '+' => r.repeated
  | '{' => failure
  | '\\' => r.atom (← escape r.flags)
  | '.' => if r.flags.unicode then return r.add (some 0) else failure
  | '^' | '$' => r.atom .textEnd
  | c => r.atom (.char c false)

/-- The reader at the end of the input. Each round reads a character at least, so there are no
more rounds than there are characters in `fuel`. -/
def finish (r : Reader) : List Char → Scan Reader
  | [] => return r
  | _ :: fuel => do
    space r.flags
    if ← Scan.atEnd then return r
    (← r.element).finish fuel

end Reader

/-- Whether a text is a pattern. -/
def isPattern (text : List Char) : Bool :=
  match Reader.finish {} text text with
  | some (r, rest) => rest.isEmpty && r.outer.isEmpty && r.group.depth ≤ maxDepth
  | none => false

/-! ### Numbers -/

/-- Whether a text is a number without a sign and a fraction, or is empty. -/
def isDigits (text : List Char) : Bool := text.all Char.isDigit

/-- Whether a text is an exponent, or is empty. -/
def isExponent : List Char → Bool
  | [] => true
  | e :: rest =>
    let digits := match rest with
      | '+' :: digits | '-' :: digits => digits
      | digits => digits
    (e = 'e' || e = 'E') && !digits.isEmpty && isDigits digits

/-- Whether a text is a number: digits, perhaps with a point and an exponent, or the name of what
is no finite number; all that perhaps after a sign. -/
def isNumber (text : List Char) : Bool :=
  let size := match text with
    | '+' :: size | '-' :: size => size
    | size => size
  let whole := size.takeWhile Char.isDigit
  let rest := size.drop whole.length
  let (fraction, rest) := match rest with
    | '.' :: rest =>
      let fraction := rest.takeWhile Char.isDigit
      (fraction, rest.drop fraction.length)
    | rest => ([], rest)
  ["inf", "infinity", "nan"].contains (String.ofList (size.map Char.toLower)) ||
    !(whole ++ fraction).isEmpty && isExponent rest

/-- Whether a text can be compared with the value of a field. -/
def isValue (text : List Char) : Bool := isNumber text || isPattern text

end Brainfuck.Pattern
