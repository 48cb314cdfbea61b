/-
# File trees

The files that a command can read and the directories that it can write to.  A directory is there
because a file is in it or because it is listed, and writing makes no directories.
-/
import PgSchema.Document
import PgSchema.FilePath

namespace PgSchema

/-- What a file holds. -/
inductive Content
  | definition (document : Document)
  | script (sql : String)

/-- The place of a file or directory: the names on the way to it.  Names of two dots lead out of
the current directory, and an empty name leads to the root. -/
abbrev FilePlace := List String

/-- Files by their places, and directories that may be empty. -/
structure FileTree where
  files : List (FilePlace × Content)
  directories : List FilePlace := []

/-- Why a file cannot be read or written. -/
inductive FileError
  | notFound
  | isDirectory
  | notDirectory
deriving DecidableEq, Repr

/-- What a reader is told. -/
def FileError.message : FileError → String
  | notFound => "no such file or directory"
  | isDirectory => "this is a directory"
  | notDirectory => "this is not a directory"

/-- The place of a path, its double dots kept. -/
def FilePath.place (p : FilePath) : FilePlace :=
  if p.start == .here then p.components else "" :: p.components

/-- The path to a place, as text. -/
def FilePlace.text (place : FilePlace) : String := "/".intercalate place

/-- The place one level up. -/
def FilePlace.parent (place : FilePlace) : FilePlace :=
  if place = [""] then place
  else if place.all (· == "..") then ".." :: place
  else place.dropLast

namespace FileTree

/-- The content of the file at a place. -/
def find? (tree : FileTree) (place : FilePlace) : Option Content :=
  (tree.files.find? fun file => file.1 == place).map (·.2)

/-- Holds for the place of a directory: of the current one and those around it, of the root, and of
those that are listed or have files. -/
def hasDirectory (tree : FileTree) (place : FilePlace) : Bool :=
  place == [""] || place.all (· == "..") || tree.directories.contains place ||
    tree.files.any fun file => place.isPrefixOf file.1 && place != file.1

/-- The directory that a piece of a path leads to. -/
def enter (tree : FileTree) (place : FilePlace) (piece : String) : Except FileError FilePlace :=
  if piece = "" ∨ piece = "." then .ok place
  else if piece = ".." then .ok place.parent
  else if tree.hasDirectory (place ++ [piece]) then .ok (place ++ [piece])
  else if (tree.find? (place ++ [piece])).isSome then .error .notDirectory
  else .error .notFound

/-- The place of the file that a path leads to. -/
def locate (tree : FileTree) (path : String) : Except FileError FilePlace := do
  if path = "" then throw .notFound
  let pieces := FilePath.pieces path
  let start : FilePlace := if pieces.length > 1 ∧ pieces.head? = some "" then [""] else []
  let directory ← pieces.dropLast.foldlM tree.enter start
  let name := pieces.getLast?.getD ""
  if name = "" ∨ name = "." ∨ name = ".." then throw .isDirectory
  let place := directory ++ [name]
  if tree.hasDirectory place then throw .isDirectory
  return place

/-- Reads the file that a path leads to. -/
def read (tree : FileTree) (path : String) : Except FileError Content := do
  match tree.find? (← tree.locate path) with
  | some content => return content
  | none => throw .notFound

/-- The tree with a file at a place. -/
def put (tree : FileTree) (place : FilePlace) (content : Content) : FileTree :=
  { tree with files := tree.files.filter (fun file => file.1 != place) ++ [(place, content)] }

/-- Writes the file that a path leads to. -/
def write (tree : FileTree) (path : String) (content : Content) : Except FileError FileTree :=
  return tree.put (← tree.locate path) content

end FileTree
end PgSchema
