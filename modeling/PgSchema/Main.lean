/-
# The command

Reads the files that a command line names, runs it on them, writes the scripts, and prints what
happened.  Definition files hold JSON documents.
-/
import PgSchema.CommandLine
import PgSchema.Document.Json

namespace PgSchema.Command

/-- The paths that a command line reads from or writes to. -/
def paths : Command → List String
  | help => []
  | build a => a.sources ++ a.config.toList ++ a.output.toList

/-- The places of the directories on the way to a path. -/
def waypoints (path : String) : List FilePlace :=
  let place := (FilePath.ofText path).place
  (List.range place.length).map place.take

/-- The document that a text holds; a blank text holds none. -/
def documentOf (text : String) : Except Document.Json.Fault Document :=
  if Text.allBlank text then .ok .null else Document.Json.read text

/-- The documents at paths, as far as there are files. -/
def files (paths : List String) : IO (List (FilePlace × Content)) := do
  let found ← paths.mapM fun (path : String) => do
    try
      let text ← IO.FS.readFile path
      match documentOf text with
      | .ok d => return [((FilePath.ofText path).place, Content.definition d)]
      | .error e =>
        IO.eprintln (path ++ ": " ++ e.message)
        return []
    catch _ => return []
  return found.flatten

/-- The files that a command line reads.  Directories are taken to exist; where one does not,
writing fails later on. -/
def fileTree (paths : List String) : IO FileTree :=
  return { files := ← files paths, directories := paths.flatMap waypoints }

/-- Writes the scripts of a tree. -/
def writeScripts (tree : FileTree) : IO Unit :=
  tree.files.forM fun file =>
    match file.2 with
    | .script sql => IO.FS.writeFile (FilePlace.text file.1) sql
    | .definition _ => pure ()

/-- What is printed at the end of a command. -/
def closing : Ending → Option String
  | .helped => some
      ("usage: pgschema [-h] [-o OUTPUT] [-c CONFIG] [-m MODE] [--no-format] [--timestamps] " ++
        "[-v] sources [sources ...]")
  | .misused e => some ("error: " ++ e.message)
  | .failed e => some ("error: " ++ e.message)
  | .built _ => none

end PgSchema.Command

open PgSchema in
/-- Runs the command. -/
def main (arguments : List String) : IO UInt32 := do
  let paths := match Command.ofArguments arguments with
    | .ok command => command.paths
    | .error _ => []
  let outcome := runCommandLine (← Command.fileTree paths) arguments
  outcome.events.forM fun e => IO.eprintln (e.level.word ++ ": " ++ e.message)
  Command.writeScripts outcome.tree
  (Command.closing outcome.ending).forM IO.eprintln
  return outcome.ending.exitCode.toUInt32
