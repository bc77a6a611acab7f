import Brainfuck.Toml.Text
import Brainfuck.Toml.Value

/-!
Documents in the making: tables that later statements may still add to, and the rules by which
they may. A table is made by its own header, or by a header or a dotted key that leads through
it; only tables of the latter two kinds are open to more keys, and only to those of their kind.
-/

namespace Brainfuck.Toml

/-- How a table came to be. -/
inductive Origin where
  /-- By its own header, or as the root of the document. -/
  | header
  /-- By the header of a table below it. -/
  | implied
  /-- By a dotted key. -/
  | dotted
  deriving DecidableEq, Repr

/-- A part of a document in the making. -/
inductive Node where
  /-- A finished value. -/
  | value (v : Value)
  | table (origin : Origin) (entries : List (String × Node))
  /-- An array of tables, of which the last may still grow. -/
  | tables (elements : List (List (String × Node)))

namespace Node

/-- The entries of a table, in the order in which they were made. -/
abbrev Entries := List (String × Node)

/-- The entries with another node under a key that is there. -/
def replace (entries : Entries) (key : String) (node : Node) : Entries :=
  entries.map fun entry => if entry.1 = key then (key, node) else entry

/-- Changes the table at the end of a path. Tables that are not there yet are made on the way. A
dotted key leads through no table that has a header of its own. -/
def descend (dotted : Bool) (change : Origin → Entries → Option Entries) :
    List String → Origin → Entries → Option Entries
  | [], origin, entries => change origin entries
  | key :: path, _, entries =>
    match entries.lookup key with
    | none => do
      let origin := if dotted then .dotted else .implied
      let inner ← descend dotted change path origin []
      return entries ++ [(key, .table origin inner)]
    | some (.value _) => none
    | some (.table origin inner) =>
      if dotted && origin = .header then none
      else do
        let inner ← descend dotted change path origin inner
        return replace entries key (.table origin inner)
    | some (.tables elements) =>
      match elements.getLast? with
      | none => none
      | some last => do
        let last ← descend dotted change path .header last
        return replace entries key (.tables (elements.dropLast ++ [last]))

/-- Adds a value under a key. A key is given once, and a dotted key adds to a table that dotted
keys have made. -/
def assign (entries : Entries) (key : DottedKey) (v : Value) : Option Entries :=
  descend true (fun origin inner =>
    if !key.path.isEmpty && origin ≠ .dotted then none
    else if (inner.lookup key.last).isSome then none
    else some (inner ++ [(key.last, .value v)])) key.path .header entries

/-- Adds values under their keys. -/
def assignAll (entries : Entries) (assignments : List (DottedKey × Value)) : Option Entries :=
  assignments.foldlM (fun entries (key, v) => assign entries key v) entries

/-- Adds a table with a header of its own. What headers below it have put into it before stays,
and the table comes last among its neighbours. -/
def addTable (entries : Entries) (key : DottedKey) (assignments : List (DottedKey × Value)) :
    Option Entries :=
  descend false (fun _ inner => do
    let start ← match inner.lookup key.last with
      | none => some []
      | some (.table .implied old) => some old
      | some _ => none
    let made ← assignAll start assignments
    return inner.filter (·.1 ≠ key.last) ++ [(key.last, .table .header made)]) key.path .header entries

/-- Adds a table at the end of an array of tables. -/
def addElement (entries : Entries) (key : DottedKey) (assignments : List (DottedKey × Value)) :
    Option Entries :=
  descend false (fun _ inner => do
    let made ← assignAll [] assignments
    match inner.lookup key.last with
    | none => return inner ++ [(key.last, .tables [made])]
    | some (.tables elements) => return replace inner key.last (.tables (elements ++ [made]))
    | some _ => none) key.path .header entries

mutual

/-- The finished value of a part. -/
def toValue : Node → Value
  | .value v => v
  | .table _ entries => .table (entryValues entries)
  | .tables elements => .array (elementValues elements)

/-- The finished entries of a table. -/
def entryValues : List (String × Node) → List (String × Value)
  | [] => []
  | (key, node) :: rest => (key, toValue node) :: entryValues rest

/-- The finished tables of an array of tables. -/
def elementValues : List (List (String × Node)) → List Value
  | [] => []
  | entries :: rest => .table (entryValues entries) :: elementValues rest

end

end Node

end Brainfuck.Toml
