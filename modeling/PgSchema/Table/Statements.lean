/-
# Statements of a table

The statements that create a table, add to it what it lacks, and create all that belongs to it.
A builder that can refuse checks everything that it renders before it gives any statement.
-/
import PgSchema.Statement
import PgSchema.Table

namespace PgSchema

namespace Column

/-- What `NULL` or `NOT NULL` is written: a column of the primary key is never `NULL`, and what the
database assumes is written only on demand. -/
def nullability (explicit : Bool) (c : Column) : List ColumnClause :=
  if explicit then [if c.primaryKey || !c.nullable then .notNull else .null]
  else if !c.nullable && !c.primaryKey then [.notNull]
  else []

/-- The clauses of a column definition: key, nullability, uniqueness, default, checks, collation.
The key is written inline unless the caller writes it elsewhere. -/
def clauses (inlineKey explicit : Bool) (c : Column) : List ColumnClause :=
  (if c.primaryKey && inlineKey then [.primaryKey] else []) ++ c.nullability explicit ++
    (if c.unique && !c.primaryKey then [.unique] else []) ++
    (c.default.map fun d => ColumnClause.default d.expression).toList ++
    c.checks.map .check ++ ((c.collation.filter (· != "")).map .collate).toList

/-- The definition of a column. -/
def definition (inlineKey explicit : Bool) (c : Column) : ColumnDefinition :=
  { name := c.name, type := c.type, clauses := c.clauses inlineKey explicit }

end Column

namespace Table

/-! ## Creating and dropping -/

/-- Checks each table constraint in turn. -/
def validateConstraints (t : Table) : Except StructureError Unit :=
  t.constraints.forM Constraint.validate

/-- Checks the partitioning, if there is one. -/
def validatePartition (t : Table) : Except StructureError Unit :=
  match t.partition with
  | some p => p.validate
  | none => .ok ()

/-- The body of a new table: columns, constraints, and a key of several columns at the end. -/
def elements (explicit : Bool) (t : Table) : List TableElement :=
  let composite := t.hasCompositeEffectiveKey
  t.columns.map (fun c => .column (c.definition (!composite) explicit)) ++
    t.constraints.map .constraint ++
    if composite then [.primaryKey t.effectiveKey] else []

/-- The statement that creates the table. -/
def createStatement (unlessExists explicit : Bool) (t : Table) :
    Except StructureError Statement := do
  t.validateConstraints
  t.validatePartition
  return .createTable t.name unlessExists (t.elements explicit) t.partition

/-- The statement that drops the table. -/
def dropStatement (t : Table) : Statement := .dropTable t.name

/-! ## Adding what is missing -/

/-- The definitions of the columns that can be added later: those outside the declared key. -/
def addableColumns (explicit : Bool) (t : Table) : List ColumnDefinition :=
  (t.columns.filter fun c => !c.primaryKey).map (·.definition false explicit)

/-- One statement for each column that can be added. -/
def addColumns (explicit : Bool) (t : Table) : List Statement :=
  (t.addableColumns explicit).map (.addColumn t.name)

/-- One block for all additions, if there are any. -/
def addMissing (t : Table) (additions : List Addition) : List Statement :=
  if additions.isEmpty then [] else [.addMissing t.name additions]

/-- One block that adds the columns that are missing. -/
def addMissingColumns (explicit : Bool) (t : Table) : List Statement :=
  t.addMissing ((t.addableColumns explicit).map .column)

/-- One block that adds the constraints that are missing. -/
def addMissingConstraints (t : Table) : Except StructureError (List Statement) := do
  t.validateConstraints
  return t.addMissing (t.constraints.map .constraint)

/-! ## Indexes -/

/-- Refuses an index over columns that the table does not have. -/
def checkIndexColumns (t : Table) (index : Index) : Except StructureError Unit :=
  match (index.columns ++ index.included).find? fun c => !t.hasColumn c with
  | some column => .error (.indexColumnUnknown t.name column)
  | none => .ok ()

/-- The statements of an index and of its comment. -/
def indexStatements (comments : Bool) (t : Table) (index : Index) :
    Except StructureError (List Statement) := do
  index.validate
  t.checkIndexColumns index
  return .createIndex t.name index ::
    if comments then Statement.commentOn (.index (index.effectiveName t.name)) index.comment else []

/-- The statements of all indexes, in order. -/
def createIndexes (comments : Bool) (t : Table) : Except StructureError (List Statement) :=
  return (← t.indexes.mapM (t.indexStatements comments)).flatten

/-! ## Foreign keys -/

/-- Refuses foreign keys on columns that the table does not have. -/
def checkForeignKeyColumns (t : Table) : Except StructureError Unit :=
  match t.foreignKeys.find? fun key => !t.hasColumn key.column with
  | some key => .error (.foreignKeyColumnUnknown t.name key.column)
  | none => .ok ()

/-- The statement of a foreign key; it needs a target. -/
def foreignKeyStatement (t : Table) (key : ForeignKey) : Except StructureError Statement :=
  if key.isUntargeted then .error (.foreignKeyUntargeted t.name key.column)
  else .ok (.addForeignKey t.name key)

/-- The foreign key of a column: the first that names it. -/
def foreignKeyOf? (t : Table) (c : Column) : Option ForeignKey :=
  t.foreignKeys.find? fun key => key.column == c.name

/-- The foreign keys that are rendered: one for each column that has some, in column order. -/
def columnForeignKeys (t : Table) : List ForeignKey := t.columns.filterMap t.foreignKeyOf?

/-- The statements of a foreign key and of its comment. -/
def foreignKeyStatements (comments : Bool) (t : Table) (key : ForeignKey) :
    Except StructureError (List Statement) := do
  let statement ← t.foreignKeyStatement key
  return statement ::
    if comments then Statement.commentOn (.constraint t.name (key.effectiveName t.name)) key.comment
    else []

/-- The statements of the foreign keys. -/
def addForeignKeys (comments : Bool) (t : Table) : Except StructureError (List Statement) := do
  t.checkForeignKeyColumns
  return (← t.columnForeignKeys.mapM (t.foreignKeyStatements comments)).flatten

/-! ## Row security -/

/-- The statement of a policy; only a command that writes rows can check them. -/
def policyStatement (t : Table) (policy : Policy) : Except StructureError Statement :=
  if policy.checksInVain then
    .error (.policyCheckNotAllowed policy.command policy.name t.name)
  else .ok (.createPolicy t.name policy)

/-- The statements of a policy and of its comment. -/
def policyStatements (comments : Bool) (t : Table) (policy : Policy) :
    Except StructureError (List Statement) := do
  let statement ← t.policyStatement policy
  return statement ::
    if comments then Statement.commentOn (.policy t.name policy.name) policy.comment else []

/-- The statements that set up row security. -/
def secureRows (comments : Bool) (t : Table) : Except StructureError (List Statement) := do
  let policies ← t.policies.mapM (t.policyStatements comments)
  return (if t.rowSecurity then [.enableRowSecurity t.name] else []) ++ policies.flatten

/-! ## Comments -/

/-- The comment on the table. -/
def tableComment (t : Table) : List Statement := Statement.commentOn (.table t.name) t.comment

/-- The comments on the columns. -/
def columnComments (t : Table) : List Statement :=
  t.columns.flatMap fun c => Statement.commentOn (.column t.name c.name) c.comment

/-- The comments on the constraints. -/
def constraintComments (t : Table) : List Statement :=
  t.constraints.flatMap fun c => Statement.commentOn (.constraint t.name c.name) c.comment

/-- The comments on the table and its parts. -/
def allComments (t : Table) : List Statement :=
  t.tableComment ++ t.columnComments ++ t.constraintComments

end Table
end PgSchema
