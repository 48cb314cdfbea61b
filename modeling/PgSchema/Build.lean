/-
# Builds

A definition file holds the tables of a script, and a build compiles it and writes the script
beside it or where it is told to.
-/
import PgSchema.Batch
import PgSchema.FileTree

namespace PgSchema

/-- Why a definition file gives no script. -/
inductive BuildError
  | file (error : FileError)
  /-- The file holds something else than tables. -/
  | notTables (source : String) (found : Document)
  /-- There is no name that the name of a script could be made of. -/
  | unnamed (path : FilePath)
  | failed (why : Failure)

/-- How messages name the type of a document. -/
def Document.typeName : Document → String
  | .null => "NoneType"
  | .flag _ => "bool"
  | .integer _ => "int"
  | .float _ => "float"
  | .text _ => "str"
  | .list _ => "list"
  | .record _ => "dict"

/-- The wording of a build error. -/
def BuildError.message : BuildError → String
  | file error => error.message
  | notTables source found =>
    "Expected a list of tables in " ++ source ++ ", got " ++ found.typeName
  | unnamed path => path.text ++ " has no file name"
  | failed why => why.message

/-- The key of the tables in a definition file. -/
def tablesKey : String := "tables"

/-- The document that a file holds; a script counts as text. -/
def Content.document : Content → Document
  | definition d => d
  | script sql => .text sql

/-- The definitions of a file: a list, or the list under a key of a record.  An empty file has
none. -/
def tablesOf (source : String) (d : Document) : Except BuildError (List Document) :=
  let tables : Document := match d with
    | .null => .list []
    | .record entries => (Entries.find? entries tablesKey).getD (.list [])
    | d => d
  match tables with
  | .list items => .ok items
  | found => .error (.notTables source found)

/-- The ending of the names of scripts. -/
def scriptExtension : String := ".schema.sql"

/-- The path of the script of a definition file, next to it. -/
def scriptPath (source : FilePath) : Except BuildError FilePath :=
  match source.name? with
  | some name => .ok (source.withName (FilePath.stem name ++ scriptExtension))
  | none => .error (.unnamed source)

/-- The path that a script is written to. -/
def targetPath (source : String) : Option String → Except BuildError FilePath
  | some output => .ok (FilePath.ofText output)
  | none => scriptPath (FilePath.ofText source)

/-- Writes a script with a line feed after it. -/
def FileTree.writeScript (tree : FileTree) (target : FilePath) (sql : String) :
    Except BuildError FileTree :=
  (tree.write target.text (.script (sql ++ "\n"))).mapError .file

/-- Reads the definitions of a file. -/
def FileTree.readTables (tree : FileTree) (source : String) :
    Except BuildError (List Document) := do
  let content ← (tree.read source).mapError .file
  tablesOf source content.document

/-- The result of a build: the files after it, and where the script went if there is one. -/
structure Built where
  tree : FileTree
  target : Option FilePath

namespace Config

/-- Compiles a definition file and writes its script, unless the script is empty. -/
def build (config : Config) (tree : FileTree) (source : String) (output : Option String) :
    Run Event BuildError Built := do
  let tables ← Run.ofResult (tree.readTables source)
  let sql ← (config.compileAll tables).mapError .failed
  if sql = "" then
    Run.report [.nothingGenerated source]
    return { tree, target := none }
  else
    let target ← Run.ofResult (targetPath source output)
    let tree ← Run.ofResult (tree.writeScript target sql)
    Run.report [.fileGenerated target.text]
    return { tree, target := some target }

/-- The result of building several files in turn: the files after it, and a run with the number
of scripts.  An error ends the run, and scripts written before it stay. -/
def buildAll (config : Config) (output : Option String) (tree : FileTree) :
    List String → FileTree × Run Event BuildError Nat
  | [] => (tree, pure 0)
  | source :: sources =>
    let run := config.build tree source output
    match run.result with
    | .error e => (tree, { events := run.events, result := .error e })
    | .ok built =>
      let rest := config.buildAll output built.tree sources
      (rest.1, do return (← run).target.toList.length + (← rest.2))

end Config
end PgSchema
