/-
# Failures

Why no script is made from a definition.  A refusal concerns one table and leaves the others of a
batch alone; any other failure ends the batch.
-/
import PgSchema.Layout
import PgSchema.Table.Audit

namespace PgSchema

/-- A path into a document in one line. -/
def Place.shownPath (path : List Place) : String :=
  ".".intercalate <| path.map fun
    | .key name => name
    | .position i => toString i

/-- A fault in one line. -/
def Fault.message (f : Fault) : String :=
  if f.path.isEmpty then f.cause.message else Place.shownPath f.path ++ ": " ++ f.cause.message

/-- Why the definition of a table is refused. -/
inductive Refusal
  /-- The definition cannot be read. -/
  | faults (found : List Fault)
  /-- The parts of the table do not fit together. -/
  | violations (table : String) (found : List Violation)
  /-- A part of the table cannot be rendered. -/
  | malformed (error : StructureError)

/-- The wording of a refusal. -/
def Refusal.message : Refusal → String
  | faults found => "; ".intercalate (found.map Fault.message)
  | violations table found =>
    "Schema validation failed for table " ++ table ++ ": " ++
      "; ".intercalate (found.map Violation.message)
  | malformed error => error.message

/-- Why no script is made. -/
inductive Failure
  | refused (why : Refusal)
  /-- Type text lacks the number that its kind needs. -/
  | missingNumber
  /-- The script has something like a mask in it and cannot be laid out. -/
  | unmaskable (error : Layout.MaskError)

/-- What is wrong with a mask. -/
def Layout.MaskError.message : Layout.MaskError → String
  | .unknownSegment number => "no segment has the number " ++ toString number
  | .badNumber fault => (BrokenRule.badInteger fault).message

/-- The wording of a failure. -/
def Failure.message : Failure → String
  | refused why => why.message
  | missingNumber => "a number is missing in type text"
  | unmaskable error => error.message

/-- A definition that cannot be read, as a failure. -/
def Failure.ofLoadError : LoadError → Failure
  | .faults found => refused (.faults found)
  | .missingNumber => missingNumber

/-- What was read, or the failure to read it. -/
def Checked.orFailure : Checked α → Except Failure α
  | ok a => .ok a
  | failed e => .error (Failure.ofLoadError e)

end PgSchema
