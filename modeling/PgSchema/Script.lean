/-
# Scripts

A migration mode is a sequence of steps, and a script is what the steps contribute in turn.  The
steps share nothing, so the script of a table depends only on the table and the configuration.
-/
import PgSchema.Event
import PgSchema.Run
import PgSchema.Table.Statements

namespace PgSchema

/-- The statements of a script, in order. -/
abbrev Script := List Statement

/-- The text of a script: a blank line between statements. -/
def Script.sql (script : Script) : String := "\n\n".intercalate (script.map Statement.sql)

/-- A step of a migration. -/
inductive Step
  | createTable (unlessExists : Bool)
  | dropTable
  | addColumns
  | addConstraints
  | createIndexes
  | addForeignKeys
  | secureRows
  | writeComments
deriving DecidableEq, Repr

namespace Step

/-- The steps that follow the creation of a table. -/
def tail : List Step := [createIndexes, addForeignKeys, secureRows, writeComments]

/-- The steps that add to a table what it lacks. -/
def alter : List Step := [addColumns, addConstraints]

/-- Adds the columns that a table lacks, as far as the configuration asks for it. -/
def columnStatements (config : Config) (t : Table) : Script :=
  if !config.migration.addsColumns then []
  else if config.migration.guards then t.addMissingColumns config.explicitNullability
  else t.addColumns config.explicitNullability

/-- What a step contributes to the script of a table. -/
def statements (config : Config) (t : Table) : Step → Except StructureError Script
  | createTable unlessExists =>
    return [← t.createStatement unlessExists config.explicitNullability]
  | dropTable => .ok [t.dropStatement]
  | addColumns => .ok (columnStatements config t)
  | addConstraints =>
    if config.migration.addsConstraints && config.migration.guards then t.addMissingConstraints
    else .ok []
  | createIndexes =>
    if config.migration.createsIndexes then t.createIndexes config.comments else .ok []
  | addForeignKeys => t.addForeignKeys config.comments
  | secureRows => t.secureRows config.comments
  | writeComments => .ok (if config.comments then t.allComments else [])

/-- What a step reports once it is done. -/
def events (config : Config) (t : Table) : Step → List Event
  | addColumns => if config.migration.dropsColumns then [.droppingLeftOut t.name] else []
  | createIndexes =>
    if config.migration.createsIndexes then [.indexesRendered t.indexes.length t.name] else []
  | _ => []

/-- Takes a step. -/
def run (config : Config) (t : Table) (step : Step) : Run Event StructureError Script := do
  let script ← Run.ofResult (step.statements config t)
  Run.report (step.events config t)
  return script

end Step

/-- The steps of a mode. -/
def MigrationMode.steps : MigrationMode → List Step
  | createOnly => .createTable false :: Step.tail
  | createIfNotExists => .createTable true :: Step.tail
  | createOrAlter => .createTable true :: Step.alter ++ Step.tail
  | alterOnly => Step.alter
  | dropAndRecreate => .dropTable :: .createTable false :: Step.tail

/-- Takes steps in turn. -/
def Step.runAll (config : Config) (t : Table) : List Step → Run Event StructureError Script
  | [] => return []
  | step :: steps => return (← step.run config t) ++ (← runAll config t steps)

/-- The script of a table in a mode. -/
def Table.scriptIn (mode : MigrationMode) (config : Config) (t : Table) :
    Run Event StructureError Script :=
  Step.runAll config t mode.steps

/-- The script of a table in the configured mode. -/
def Table.script (config : Config) (t : Table) : Run Event StructureError Script := do
  Run.report [.generating config.migration.mode t.name]
  t.scriptIn config.migration.mode config

end PgSchema
