/-
# Batches

The compilation of a list of definitions.  A definition that is refused is skipped and reported,
and the others are compiled as if it were not there.
-/
import PgSchema.Compilation

namespace PgSchema

/-- The key of a table's name. -/
def labelKey : String := Table.nameField.name

/-- What a definition at a position is called in reports: by its name, or else by its position. -/
def label (position : Nat) : Document → String
  | .record entries =>
    match Entries.find? entries labelKey with
    | some name => name.printed
    | none => "#" ++ toString position
  | _ => toString position

namespace Config

/-- The definition with the configured row security, unless it has its own. -/
def completed (config : Config) : Document → Document
  | .record entries =>
    let key := Table.rowSecurityField.name
    if Entries.has entries key then .record entries
    else .record (entries ++ [(key, .flag config.rowSecurityByDefault)])
  | d => d

/-- Reads a table, with the configured row security. -/
def loadTable (config : Config) (d : Document) : Checked Table := Table.load (config.completed d)

/-- Reads and compiles a definition. -/
def compileDefinition (config : Config) (d : Document) : Run Event Failure String := do
  let t ← Run.ofResult (config.loadTable d).orFailure
  config.compile t

/-- Compiles the definition at a position; one that is refused gives no text. -/
def compileOrSkip (config : Config) (position : Nat) (d : Document) : Run Event Failure String :=
  let run := config.compileDefinition d
  match run.result with
  | .error (.refused why) =>
    { events := run.events ++ [.tableSkipped (label position d) why], result := .ok "" }
  | _ => run

/-- The texts of definitions, the first of which has the given position. -/
def compileFrom (config : Config) (position : Nat) :
    List Document → Run Event Failure (List String)
  | [] => return []
  | d :: ds =>
    return (← config.compileOrSkip position d) :: (← compileFrom config (position + 1) ds)

/-- The scripts of definitions, a blank line between them; empty scripts are left out. -/
def compileAll (config : Config) (definitions : List Document) : Run Event Failure String :=
  return "\n\n".intercalate ((← config.compileFrom 0 definitions).filter (· != ""))

end Config
end PgSchema
