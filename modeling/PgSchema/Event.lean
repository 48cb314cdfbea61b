/-
# Events

What a compilation reports on the way, each event with a level and a wording.
-/
import PgSchema.Config
import PgSchema.Failure

namespace PgSchema

/-- How much an event matters. -/
inductive Level
  | debug | info | warning
deriving DecidableEq, Repr

/-- The word for a level. -/
def Level.word : Level → String
  | debug => "DEBUG"
  | info => "INFO"
  | warning => "WARNING"

/-- Something that happened in a compilation. -/
inductive Event
  | warned (table : String) (warning : Warning)
  | generating (mode : MigrationMode) (table : String)
  /-- Columns were to be dropped, which is not done. -/
  | droppingLeftOut (table : String)
  | indexesRendered (count : Nat) (table : String)
  | extensionsNeeded (table : String) (extensions : List String)
  | leftUnformatted (why : Sql.LexError)
  | compiled (table : String) (characters : Nat)
  | tableSkipped (label : String) (why : Refusal)
  | nothingGenerated (source : String)
  | fileGenerated (target : String)
  | filesWritten (written total : Nat)

namespace Event

/-- The level of an event. -/
def level : Event → Level
  | warned .. | leftUnformatted .. | tableSkipped .. => .warning
  | droppingLeftOut .. | extensionsNeeded .. | nothingGenerated .. | fileGenerated .. => .info
  | generating .. | indexesRendered .. | compiled .. | filesWritten .. => .debug

/-- The wording of an event, where the cause that a message ends with is worded elsewhere. -/
def messageWith (refusal : Refusal → String) (lexical : Sql.LexError → String) : Event → String
  | warned table warning => "Table " ++ table ++ ": " ++ warning.message
  | generating mode table => "Generating " ++ mode.word ++ " for table " ++ table
  | droppingLeftOut table =>
    "Column dropping for " ++ table ++ " is not generated: it requires the live table definition"
  | indexesRendered count table =>
    "Rendered " ++ toString count ++ " index(es) for " ++ table
  | extensionsNeeded table extensions =>
    "Table " ++ table ++ " requires extension(s): " ++ ", ".intercalate extensions
  | leftUnformatted why => "Leaving SQL unformatted: " ++ lexical why
  | compiled table characters =>
    "Compiled table " ++ table ++ " (" ++ toString characters ++ " characters)"
  | tableSkipped label why =>
    "Skipping schema generation for table " ++ label ++ ": " ++ refusal why
  | nothingGenerated source => "No tables generated for " ++ source
  | fileGenerated target => "Generated schema file: " ++ target
  | filesWritten written total =>
    "Wrote " ++ toString written ++ " of " ++ toString total ++ " schema file(s)"

/-- The wording of an event. -/
def message : Event → String := messageWith Refusal.message Sql.LexError.message

end Event
end PgSchema
