/-
# BooleanLexer.Files.Basic -- files and directories

A file system tells what is at each place: a directory, a file with its contents, or
nothing.  A place is the list of names that leads to it from the root.

`read` gives the contents of the file that a path leads to.  `write` replaces them,
or makes the file where there is none, and changes nothing elsewhere
(`node?_put_of_ne`).
-/
import BooleanLexer.Files.Path

namespace BooleanLexer

set_option autoImplicit false

/-- The names that lead to a place from the root. -/
abbrev Place := List Text

/-- What is at a place. -/
inductive Node where
  | directory
  | file (contents : List UInt8)
deriving DecidableEq

/-- What is at each place, and where paths start. -/
structure Files where
  node? : Place → Option Node
  here : Place

namespace Files

/-- A file system with the same places but one. -/
def put (files : Files) (place : Place) (node : Node) : Files :=
  { files with node? := fun other => if other = place then some node else files.node? other }

@[simp] theorem node?_put_self (files : Files) (place : Place) (node : Node) :
    (files.put place node).node? place = some node := by
  simp [put]

theorem node?_put_of_ne (files : Files) {place other : Place} (node : Node)
    (elsewhere : other ≠ place) : (files.put place node).node? other = files.node? other := by
  simp [put, elsewhere]

/-- Whether a place can be searched for names. -/
def requireDirectory (files : Files) (place : Place) : Except PathFault Unit :=
  match files.node? place with
  | some .directory => .ok ()
  | some (.file _) => .error .notDirectory
  | none => .error .missing

/-- The place that one step leads to. -/
def follow (files : Files) (place : Place) (step : Text) : Except PathFault Place := do
  files.requireDirectory place
  if step = Path.stay then return place
  else if step = Path.up then return place.dropLast
  else if Path.maxNameSize < Text.byteSize step then throw .tooLong
  else return place ++ [step]

/-- The place where a path starts. -/
def origin (files : Files) (path : Path) : Place := if path.fromRoot then [] else files.here

/-- The contents of the file that a path leads to. -/
def read (files : Files) (path : Text) : Except PathFault (List UInt8) := do
  let path ← Path.ofText path
  let place ← path.steps.foldlM files.follow (files.origin path)
  match files.node? place with
  | some (.file contents) => if path.endsOpen then throw .notDirectory else return contents
  | some .directory => throw .isDirectory
  | none => throw .missing

/-- The place of the file that writing to a path replaces or makes. -/
def target (files : Files) (path : Text) : Except PathFault Place := do
  let path ← Path.ofText path
  match path.steps.getLast? with
  | none => throw .isDirectory
  | some name =>
      let parent ← path.steps.dropLast.foldlM files.follow (files.origin path)
      files.requireDirectory parent
      if path.endsOpen || name = Path.stay || name = Path.up then throw .isDirectory
      let place ← files.follow parent name
      if files.node? place = some .directory then throw .isDirectory else return place

/-- A file system in which the file that a path leads to has the given contents. -/
def write (files : Files) (path : Text) (contents : List UInt8) : Except PathFault Files := do
  return files.put (← files.target path) (.file contents)

end Files

end BooleanLexer
