/-
# Structural errors

The first structural rule that a part of a table definition breaks when SQL is to be written
for it.
-/
import PgSchema.IndexMethod
import PgSchema.PolicyCommand

namespace PgSchema

/-- A list of columns that a definition must give. -/
inductive ColumnList
  | unique (constraint : String)
  | primaryKey (constraint : String)
  | partition (keyword : String)
deriving DecidableEq, Repr

/-- How messages speak of a list of columns. -/
def ColumnList.describe : ColumnList → String
  | unique name => "UNIQUE constraint " ++ name
  | primaryKey name => "PRIMARY KEY constraint " ++ name
  | partition keyword => keyword ++ " partition"

/-- A broken structural rule. -/
inductive StructureError
  | constraintUnnamed
  | constraintMisnamed (name : String)
  | checkEmpty (constraint : String)
  | columnsMissing (list : ColumnList)
  | columnBlank (list : ColumnList)
  | indexOverdetermined
  | indexUndetermined
  | indexExpressionBlank
  | indexSingleColumn (method : IndexMethod)
  | indexUnordered (method : IndexMethod)
  | indexNoInclude (method : IndexMethod)
  | indexNotUnique (method : IndexMethod)
  | fillFactorOutOfRange (value : Int)
  | fillFactorNotAllowed (method : IndexMethod)
  | storageParameterNotAllowed (parameter : String) (method : IndexMethod)
  | indexColumnUnknown (table column : String)
  | foreignKeyColumnUnknown (table column : String)
  | foreignKeyUntargeted (table column : String)
  | policyCheckNotAllowed (command : PolicyCommand) (policy table : String)
deriving DecidableEq, Repr

/-- The wording of a structural error. -/
def StructureError.message : StructureError → String
  | constraintUnnamed => "Constraint name cannot be empty"
  | constraintMisnamed name =>
    "Constraint name must start with a letter or underscore and contain only letters, " ++
      "numbers, and underscores: " ++ name
  | checkEmpty name => "CHECK constraint " ++ name ++ " condition cannot be empty"
  | columnsMissing list => list.describe ++ " must specify at least one column"
  | columnBlank list => list.describe ++ " column name cannot be empty"
  | indexOverdetermined => "Index cannot specify both columns and an expression"
  | indexUndetermined => "Index must specify columns or an expression"
  | indexExpressionBlank => "Index expression cannot be empty"
  | indexSingleColumn method => method.word ++ " indexes support a single column only"
  | indexUnordered method => method.word ++ " indexes do not support ordering"
  | indexNoInclude method => method.word ++ " indexes do not support INCLUDE columns"
  | indexNotUnique method => method.word ++ " indexes cannot be unique"
  | fillFactorOutOfRange value =>
    "Fill factor must be between 10 and 100, got " ++ toString value
  | fillFactorNotAllowed method =>
    "Fill factor is only supported for btree and hash indexes, not " ++ method.word
  | storageParameterNotAllowed parameter method =>
    "Storage parameter '" ++ parameter ++ "' is not valid for " ++ method.word ++ " indexes"
  | indexColumnUnknown table column =>
    "Index on table " ++ table ++ " references unknown column '" ++ column ++ "'"
  | foreignKeyColumnUnknown table column =>
    "Foreign key on table " ++ table ++ " references unknown column '" ++ column ++ "'"
  | foreignKeyUntargeted table column =>
    "Foreign key on " ++ table ++ "." ++ column ++ " has no target table"
  | policyCheckNotAllowed command policy table =>
    "WITH CHECK is not allowed on " ++ command.sql ++ " policy " ++ policy ++ " on " ++ table

end PgSchema
