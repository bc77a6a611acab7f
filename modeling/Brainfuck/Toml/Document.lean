import Brainfuck.Toml.Node
import Brainfuck.Toml.Number

/-!
TOML documents: values, statements, and the table that a text stands for. A text that breaks any
rule stands for none.
-/

namespace Brainfuck.Toml

/-- An assignment: a key, an equals sign and a value. -/
def assignment (value : Scan Value) : Scan (DottedKey × Value) := do
  let key ← dottedKey
  Scan.char '='
  blanks
  let v ← value
  return (key, v)

/-- The items of an array, after its bracket. -/
def items (value : Scan Value) : Scan Value := do
  gaps
  let found ← Scan.optional? (Scan.separated (gaps *> value <* gaps) (Scan.char ','))
  if found.isSome then
    let _ ← Scan.optional? (Scan.char ',')
  gaps
  Scan.char ']'
  return .array (found.getD [])

/-- The assignments of an inline table, after its brace. -/
def inlineTable (value : Scan Value) : Scan Value := do
  let found ← Scan.optional? (Scan.separated (assignment value <* blanks) (Scan.char ','))
  blanks
  Scan.char '}'
  match Node.assignAll [] (found.getD []) with
  | some entries => return .table (Node.entryValues entries)
  | none => failure

/-- A value in which arrays and inline tables nest less than `depth` deep. -/
def value (depth : Nat) : Scan Value := do
  match ← Scan.peek? with
  | some '"' | some '\'' => return .string (← string)
  | some '[' =>
    match depth with
    | 0 => failure
    | depth + 1 =>
      Scan.char '['
      items (value depth)
  | some '{' =>
    match depth with
    | 0 => failure
    | depth + 1 =>
      Scan.char '{'
      inlineTable (value depth)
  | some 't' => Scan.word "true" *> pure (.boolean true)
  | some 'f' => Scan.word "false" *> pure (.boolean false)
  | _ => number

/-- A line of a document. -/
inductive Statement where
  | assign (key : DottedKey) (v : Value)
  | table (key : DottedKey)
  | element (key : DottedKey)

/-- A header of a table. -/
def header : Scan Statement := do
  Scan.char '['
  let element ← Scan.optional? (Scan.char '[')
  let key ← dottedKey
  Scan.char ']'
  if element.isSome then
    Scan.char ']'
    return .element key
  else return .table key

/-- A line, with the statement that stands on it if one does. -/
def line : Scan (Option Statement) := do
  if ← Scan.atEnd then failure
  blanks
  match ← Scan.peek? with
  | none | some '#' | some '\n' | some '\r' => lineRest *> pure none
  | some '[' => some <$> header <* lineRest
  | _ => do
    let (key, v) ← assignment (value (maxDepth - 1))
    lineRest
    return some (.assign key v)

/-- The statements of a text. -/
def statements (text : String) : Option (List Statement) :=
  let chars := match text.toList with
    | '\ufeff' :: rest => rest
    | chars => chars
  match Scan.many line chars with
  | some (found, []) => some (found.filterMap id)
  | _ => none

/-- The assignments before the next header, and the statements from that header on. -/
def leading : List Statement → List (DottedKey × Value) × List Statement
  | .assign key v :: rest =>
    let (assignments, rest) := leading rest
    ((key, v) :: assignments, rest)
  | rest => ([], rest)

theorem leading_length_le (ss : List Statement) : (leading ss).2.length ≤ ss.length := by
  fun_induction leading ss with
  | case1 key v rest assignments rest' h ih => simp_all; omega
  | case2 => simp

/-- The entries after further tables, each of which is a header with its assignments. -/
def sections (entries : Node.Entries) : List Statement → Option Node.Entries
  | [] => some entries
  | .assign key v :: rest => do
    let entries ← Node.assign entries key v
    sections entries rest
  | .table key :: rest => do
    have := leading_length_le rest
    let entries ← Node.addTable entries key (leading rest).1
    sections entries (leading rest).2
  | .element key :: rest => do
    have := leading_length_le rest
    let entries ← Node.addElement entries key (leading rest).1
    sections entries (leading rest).2
termination_by ss => ss.length
decreasing_by all_goals simp only [List.length_cons]; omega

/-- The entries of the root table of a document, if the text is one. -/
def parse (text : String) : Option (List (String × Value)) := do
  let ss ← statements text
  let entries ← sections [] ss
  return Node.entryValues entries

end Brainfuck.Toml
