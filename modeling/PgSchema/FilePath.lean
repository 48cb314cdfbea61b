/-
# File paths

A path has a start and components.  Reading a path drops empty components and single dots, and
`FilePath.text` writes it back in that form.  Double dots stay, because what they lead to depends
on the files.
-/
import PgSchema.Text.Blank

namespace PgSchema

/-- Where a path starts. -/
inductive PathStart
  /-- In the current directory. -/
  | here
  /-- In the root directory. -/
  | root
  /-- In the root directory, spelled with two slashes. -/
  | doubleRoot
deriving DecidableEq, Repr

/-- How the start of a path is written. -/
def PathStart.text : PathStart → String
  | here => ""
  | root => "/"
  | doubleRoot => "//"

/-- A path. -/
structure FilePath where
  start : PathStart
  components : List String
deriving DecidableEq, Repr

namespace FilePath

/-- The pieces of a text between its slashes. -/
def pieces (s : String) : List String := (Text.splitAt '/' s.toList).map String.ofList

/-- The start of a text as a path: three slashes or more count as one. -/
def startOf (s : String) : PathStart :=
  match (s.toList.takeWhile (· == '/')).length with
  | 0 => .here
  | 2 => .doubleRoot
  | _ => .root

/-- The path that a text spells. -/
def ofText (s : String) : FilePath :=
  { start := startOf s, components := (pieces s).filter fun piece => piece != "" && piece != "." }

/-- The path as text: a dot if there is nothing to write. -/
def text (p : FilePath) : String :=
  if p.start == .here && p.components.isEmpty then "."
  else p.start.text ++ "/".intercalate p.components

/-- The last component. -/
def name? (p : FilePath) : Option String := p.components.getLast?

/-- What stands before the last dot of a name; a dot at the start or the end does not count. -/
def stem (name : String) : String :=
  let backwards := name.toList.reverse
  match backwards.takeWhile (· != '.'), backwards.dropWhile (· != '.') with
  | _ :: _, _ :: front@(_ :: _) => String.ofList front.reverse
  | _, _ => name

/-- The path with another last component. -/
def withName (p : FilePath) (name : String) : FilePath :=
  { p with components := p.components.dropLast ++ [name] }

end FilePath
end PgSchema
