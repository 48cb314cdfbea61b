/-
# Audit of a table

The rules that span several parts of a table.  `Table.violations` lists every breach, and a table
with none can be rendered if its indexes can; `Table.warnings` lists what is legal but doubtful.
-/
import PgSchema.Table

namespace PgSchema

/-- A breach of a rule that spans several parts of a table. -/
inductive Violation
  | foreignKeyUntargeted (column : String)
  | foreignKeyColumnUnknown (column : String)
  | indexColumnUnknown (index column : String)
  | includedColumnUnknown (index column : String)
  | policyConditionBlank (policy : String)
  | policyCheckNotAllowed (policy : String) (command : PolicyCommand)
  | malformed (error : StructureError)
  | constraintColumnUnknown (constraint column : String)
  | partitionColumnUnknown (column : String)
  | partitionColumnOutsideKey (column : String)
deriving DecidableEq, Repr

/-- The wording of a violation. -/
def Violation.message : Violation → String
  | foreignKeyUntargeted column => "Foreign key on column '" ++ column ++ "' has no target table"
  | foreignKeyColumnUnknown column => "Foreign key references unknown column '" ++ column ++ "'"
  | indexColumnUnknown index column =>
    "Index " ++ index ++ " references unknown column '" ++ column ++ "'"
  | includedColumnUnknown index column =>
    "Index " ++ index ++ " includes unknown column '" ++ column ++ "'"
  | policyConditionBlank policy => "Policy '" ++ policy ++ "' has an empty USING condition"
  | policyCheckNotAllowed policy command =>
    "Policy '" ++ policy ++ "' cannot have a WITH CHECK condition for " ++ command.sql
  | malformed error => error.message
  | constraintColumnUnknown constraint column =>
    "Constraint " ++ constraint ++ " references unknown column '" ++ column ++ "'"
  | partitionColumnUnknown column =>
    "Partition column '" ++ column ++ "' is not a column of the table"
  | partitionColumnOutsideKey column =>
    "Partition column '" ++ column ++ "' must be part of the primary key"

/-- Something legal but doubtful about a table. -/
inductive Warning
  | noPrimaryKey
  | policiesIdle
  | actionUnsuited (action : ReferentialAction) (column : String)
  | defaultUnfit (expression column type : String)
  | defaultAdvice (column advice : String)
  | identifierTooLong (identifier : String) (limit : Nat)
deriving DecidableEq, Repr

/-- The wording of a warning. -/
def Warning.message : Warning → String
  | noPrimaryKey => "Table has no primary key"
  | policiesIdle => "Policies are defined but row level security is disabled"
  | actionUnsuited action column =>
    action.sql ++ " on foreign key column '" ++ column ++ "': " ++
      "; ".intercalate action.requirements
  | defaultUnfit expression column type =>
    "Default " ++ expression ++ " may not be valid for column '" ++ column ++ "' of type " ++ type
  | defaultAdvice column advice => "Column '" ++ column ++ "': " ++ advice
  | identifierTooLong identifier limit =>
    "Identifier '" ++ identifier ++ "' exceeds " ++ toString limit ++
      " characters and will be truncated by PostgreSQL"

/-- The value, if the condition holds. -/
def reportIf (condition : Bool) (a : α) : List α := if condition then [a] else []

namespace Table

/-! ## Violations -/

/-- The names that are no columns of the table. -/
def unknownColumns (t : Table) (names : List String) : List String :=
  names.filter fun c => !t.hasColumn c

/-- What is wrong with a foreign key. -/
def foreignKeyViolations (t : Table) (key : ForeignKey) : List Violation :=
  reportIf key.isUntargeted (.foreignKeyUntargeted key.column) ++
    reportIf (!t.hasColumn key.column) (.foreignKeyColumnUnknown key.column)

/-- What is wrong with the columns of an index. -/
def indexViolations (t : Table) (index : Index) : List Violation :=
  let name := index.effectiveName t.name
  (t.unknownColumns index.columns).map (.indexColumnUnknown name) ++
    (t.unknownColumns index.included).map (.includedColumnUnknown name)

/-- What is wrong with a policy. -/
def policyViolations (policy : Policy) : List Violation :=
  reportIf (Text.allBlank policy.condition) (.policyConditionBlank policy.name) ++
    reportIf policy.checksInVain (.policyCheckNotAllowed policy.name policy.command)

/-- What is wrong with a constraint: its columns are looked at only if it is well-formed. -/
def constraintViolations (t : Table) (c : Constraint) : List Violation :=
  match c.validate with
  | .error e => [.malformed e]
  | .ok () => (t.unknownColumns c.columns).map (.constraintColumnUnknown c.name)

/-- What is wrong with a column that partitions the table. -/
def partitionColumnViolations (t : Table) (column : String) : List Violation :=
  if Text.allBlank column then []
  else if !t.hasColumn column then [.partitionColumnUnknown column]
  else reportIf (!t.declaredKey.contains column) (.partitionColumnOutsideKey column)

/-- What is wrong with a partitioning. -/
def partitionViolations (t : Table) (p : Partition) : List Violation :=
  (match p.validate with
    | .error e => [.malformed e]
    | .ok () => []) ++ p.columns.flatMap t.partitionColumnViolations

/-- Every violation: of foreign keys, indexes, policies, constraints and partitioning. -/
def violations (t : Table) : List Violation :=
  t.foreignKeys.flatMap t.foreignKeyViolations ++ t.indexes.flatMap t.indexViolations ++
    t.policies.flatMap policyViolations ++ t.constraints.flatMap t.constraintViolations ++
    t.partition.toList.flatMap t.partitionViolations

/-! ## Warnings -/

/-- The actions of a foreign key, without repetition. -/
def actionsOf (key : ForeignKey) : List ReferentialAction := [key.onDelete, key.onUpdate].eraseDups

/-- The actions of a foreign key that its column cannot take. -/
def foreignKeyWarnings (t : Table) (key : ForeignKey) : List Warning :=
  match t.column? key.column with
  | none => []
  | some c =>
    ((actionsOf key).filter fun a => !a.suits c.effectiveNullable c.hasDefault).map fun a =>
      .actionUnsuited a c.name

/-- What is doubtful about the default of a column. -/
def defaultWarnings (c : Column) : List Warning :=
  match c.default with
  | none => []
  | some d =>
    reportIf (!d.fits c.type.sql) (.defaultUnfit d.expression c.name c.type.sql) ++
      d.warnings.map (.defaultAdvice c.name)

/-- The identifiers that the script of the table uses. -/
def identifiers (t : Table) : List String :=
  t.name :: t.columnNames ++ t.indexes.map (·.effectiveName t.name) ++
    t.foreignKeys.map (·.effectiveName t.name) ++ t.policies.map (·.name) ++
    t.constraints.map (·.name)

/-- Every warning; identifiers longer than the limit are among them. -/
def warnings (limit : Nat) (t : Table) : List Warning :=
  reportIf t.declaredKey.isEmpty .noPrimaryKey ++
    reportIf (!t.policies.isEmpty && !t.rowSecurity) .policiesIdle ++
    t.foreignKeys.flatMap t.foreignKeyWarnings ++ t.columns.flatMap defaultWarnings ++
    (t.identifiers.filter fun name => limit < name.length).map (.identifierTooLong · limit)

end Table
end PgSchema
