import Brainfuck.Files.Basic

/-!
A tree of files: what opening and reading a path in it gives.

A path is followed name by name from the working directory. Links are followed as they are met, up
to a fixed number of them, and nothing is known outside the tree.
-/

namespace Brainfuck

/-- Something that has a name in a directory. -/
inductive FileNode where
  | file (content : ByteArray)
  | directory (entries : List (List UInt8 × FileNode))
  | link (target : Path)
  deriving Inhabited

/-- A working directory. -/
structure FileTree where
  entries : List (List UInt8 × FileNode)
  deriving Inhabited

namespace FileTree

/-- The entries of a directory. -/
abbrev Entries := List (List UInt8 × FileNode)

/-- The longest name of a file. -/
def maxName : Nat := 255

/-- The length that a path must stay below. -/
def maxPath : Nat := 4096

/-- The number of links that may be followed on the way to a file. -/
def maxLinks : Nat := 40

/-- Follows `todo` from the directory `current`, whose ancestors are `above`, the nearest first.
`links` more links may be followed. Above the tree lies a directory without entries. -/
def follow (links : Nat) (current : Entries) (above : List Entries) :
    List (List UInt8) → Except Fault FileNode
  | [] => .ok (.directory current)
  | name :: rest =>
    if name = Path.here then follow links current above rest
    else if name = Path.above then
      match above with
      | [] => follow links [] [] rest
      | parent :: above => follow links parent above rest
    else if name.length > maxName then .error .nameTooLong
    else
      match current.lookup name with
      | none => .error .noSuchFile
      | some (.directory entries) => follow links entries (current :: above) rest
      | some (.file content) => if rest.isEmpty then .ok (.file content) else .error .notADirectory
      | some (.link target) =>
        match links with
        | 0 => .error .tooManyLinks
        | links + 1 =>
          if target.bytes.isEmpty then .error .noSuchFile
          else if target.isAbsolute then follow links [] [] (target.names ++ rest)
          else follow links current above (target.names ++ rest)
termination_by todo => (links, todo.length)

/-- What a path leads to. -/
def find (t : FileTree) (p : Path) : Except Fault FileNode :=
  if p.bytes.contains 0 then .error .nulInPath
  else if p.bytes.isEmpty then .error .noSuchFile
  else if p.bytes.length ≥ maxPath then .error .nameTooLong
  else if p.isAbsolute then follow maxLinks [] [] p.names
  else follow maxLinks t.entries [] p.names

/-- The files of a tree. -/
def files (t : FileTree) : Files := fun p =>
  match t.find p with
  | .ok (.file content) => .ok content
  | .ok _ => .error .isADirectory
  | .error f => .error f

/-! ### Making a tree -/

/-- A node in the place of an older one, which gives way unless both are directories. -/
def supersede (node : FileNode) (old : Option FileNode) : FileNode :=
  match node, old with
  | .directory [], some (.directory entries) => .directory entries
  | node, _ => node

/-- The entries with a node at the end of a chain of names; directories are made as needed. -/
def place (node : FileNode) : List (List UInt8) → Entries → Entries
  | [], entries => entries
  | [name], entries =>
    entries.filter (·.1 ≠ name) ++ [(name, supersede node (entries.lookup name))]
  | name :: rest, entries =>
    let inner := match entries.lookup name with
      | some (.directory inner) => inner
      | _ => []
    entries.filter (·.1 ≠ name) ++ [(name, .directory (place node rest inner))]

/-- The tree with a node at a path. -/
def insert (t : FileTree) (p : Path) (node : FileNode) : FileTree :=
  ⟨place node (p.names.filter (· ≠ Path.here)) t.entries⟩

/-- A directory without entries. -/
def empty : FileTree := ⟨[]⟩

end FileTree

end Brainfuck
