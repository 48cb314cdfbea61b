/-
# Statements

The statements of a script as data, and the SQL text of each of them.  `Statement.sql` ends every
statement with a semicolon.
-/
import PgSchema.Constraint
import PgSchema.ForeignKey
import PgSchema.Index
import PgSchema.Policy
import PgSchema.Sql.Quote
import PgSchema.SqlType

namespace PgSchema

/-! ## Column definitions -/

/-- A clause of a column definition, after the type. -/
inductive ColumnClause
  | primaryKey
  | null
  | notNull
  | unique
  | default (expression : String)
  | check (condition : String)
  | collate (collation : String)
deriving DecidableEq, Repr

/-- The clause in SQL. -/
def ColumnClause.sql : ColumnClause → String
  | primaryKey => "PRIMARY KEY"
  | null => "NULL"
  | notNull => "NOT NULL"
  | unique => "UNIQUE"
  | default expression => "DEFAULT " ++ expression
  | check condition => "CHECK (" ++ condition ++ ")"
  | collate collation => "COLLATE \"" ++ collation ++ "\""

/-- A column as it is defined in a statement. -/
structure ColumnDefinition where
  name : String
  type : SqlType
  clauses : List ColumnClause

/-- The definition in SQL. -/
def ColumnDefinition.sql (d : ColumnDefinition) : String :=
  " ".intercalate (d.name :: d.type.sql :: d.clauses.map (·.sql))

/-! ## Table bodies -/

/-- An element of the body of a new table. -/
inductive TableElement
  | column (definition : ColumnDefinition)
  | constraint (constraint : Constraint)
  | primaryKey (columns : List String)

/-- The element in SQL. -/
def TableElement.sql : TableElement → String
  | column definition => definition.sql
  | constraint c => c.sql
  | primaryKey columns => "PRIMARY KEY (" ++ ", ".intercalate columns ++ ")"

/-! ## Guarded additions -/

/-- A part of a table that is added unless it exists. -/
inductive Addition
  | column (definition : ColumnDefinition)
  | constraint (constraint : Constraint)

namespace Addition

/-- The name that the part goes by in the catalogue. -/
def name : Addition → String
  | column definition => definition.name
  | constraint c => c.name

/-- The query that finds the part in the catalogue. -/
def query (table : String) : Addition → String
  | column definition =>
    "SELECT 1 FROM information_schema.columns WHERE table_name = " ++ Sql.literal table ++
      " AND column_name = " ++ Sql.literal definition.name
  | constraint c => "SELECT 1 FROM pg_constraint WHERE conname = " ++ Sql.literal c.name

/-- The statement that adds the part. -/
def sql (table : String) : Addition → String
  | column definition => "ALTER TABLE " ++ table ++ " ADD COLUMN " ++ definition.sql ++ ";"
  | constraint c => "ALTER TABLE " ++ table ++ " ADD " ++ c.sql ++ ";"

theorem query_column (table : String) (d : ColumnDefinition) :
    query table (.column d) = "SELECT 1 FROM information_schema.columns WHERE table_name = " ++
      Sql.literal table ++ " AND column_name = " ++ Sql.literal d.name := rfl

theorem query_constraint (table : String) (c : Constraint) :
    query table (.constraint c) =
      "SELECT 1 FROM pg_constraint WHERE conname = " ++ Sql.literal c.name := rfl

theorem sql_column (table : String) (d : ColumnDefinition) :
    sql table (.column d) = "ALTER TABLE " ++ table ++ " ADD COLUMN " ++ d.sql ++ ";" := rfl

theorem sql_constraint (table : String) (c : Constraint) :
    sql table (.constraint c) = "ALTER TABLE " ++ table ++ " ADD CONSTRAINT " ++ c.name ++ " " ++
      (Constraint.ruleSql c.rule ++ ";") := by
  have hadd : (" ADD CONSTRAINT " : String) = " ADD " ++ "CONSTRAINT " := rfl
  change "ALTER TABLE " ++ table ++ " ADD " ++
    ("CONSTRAINT " ++ c.name ++ " " ++ Constraint.ruleSql c.rule) ++ ";" = _
  simp only [hadd, String.append_assoc]

end Addition

/-- The lines that run a statement unless a query finds something. -/
def Sql.guardLines (query statement : String) : List String :=
  ["  IF NOT EXISTS (" ++ query ++ ") THEN", "    " ++ statement, "  END IF;"]

/-- An anonymous block that runs each statement unless its query finds something. -/
def Sql.guardedBlock (guards : List (String × String)) : String :=
  "\n".intercalate
    (["DO $$", "BEGIN"] ++ guards.flatMap (fun guard => Sql.guardLines guard.1 guard.2) ++
      ["END $$;"])

/-! ## Comments -/

/-- What a comment is about. -/
inductive CommentTarget
  | table (table : String)
  | column (table column : String)
  | constraint (table constraint : String)
  | index (index : String)
  | policy (table policy : String)
deriving DecidableEq, Repr

/-- The target in SQL. -/
def CommentTarget.sql : CommentTarget → String
  | table t => "TABLE " ++ t
  | column t c => "COLUMN " ++ t ++ "." ++ c
  | constraint t c => "CONSTRAINT " ++ c ++ " ON " ++ t
  | index i => "INDEX " ++ i
  | policy t p => "POLICY " ++ p ++ " ON " ++ t

/-! ## Statements -/

/-- A statement of a script. -/
inductive Statement
  | createTable (table : String) (unlessExists : Bool) (elements : List TableElement)
      (partition : Option Partition)
  | dropTable (table : String)
  | addColumn (table : String) (definition : ColumnDefinition)
  | addMissing (table : String) (additions : List Addition)
  | createIndex (table : String) (index : Index)
  | addForeignKey (table : String) (key : ForeignKey)
  | enableRowSecurity (table : String)
  | createPolicy (table : String) (policy : Policy)
  | comment (target : CommentTarget) (text : String)

namespace Statement

/-- A comment, unless its text is absent or empty. -/
def commentOn (target : CommentTarget) (text : Option String) : List Statement :=
  match text.filter (· != "") with
  | some text => [.comment target text]
  | none => []

/-- A new table: one element to a line. -/
def createTableSql (table : String) (unlessExists : Bool) (elements : List TableElement)
    (partition : Option Partition) : String :=
  let head := if unlessExists then "CREATE TABLE IF NOT EXISTS " else "CREATE TABLE "
  let body := ",\n".intercalate (elements.map fun element => "  " ++ element.sql)
  let tail := match partition with
    | some p => " " ++ p.sql
    | none => ""
  head ++ table ++ " (\n" ++ body ++ "\n)" ++ tail ++ ";"

/-- A column of an index, with what orders it. -/
def indexKeySql (index : Index) (column : String) : String :=
  column ++
    (match index.operatorClass.filter (· != "") with
      | some operatorClass => " " ++ operatorClass
      | none => "") ++
    (if index.descending then " DESC" else "") ++
    (match index.nullsFirst with
      | some true => " NULLS FIRST"
      | some false => " NULLS LAST"
      | none => "")

/-- What an index covers. -/
def indexKeysSql (index : Index) : String :=
  match index.expression with
  | some expression => "(" ++ expression ++ ")"
  | none => "(" ++ ", ".intercalate (index.columns.map (indexKeySql index)) ++ ")"

/-- A clause that is written if there is something to write in it. -/
def clause? (start : String) (text : Option String) : List String :=
  match text.filter (· != "") with
  | some text => [start ++ text]
  | none => []

/-- A clause with a list in parentheses, written unless the list is empty. -/
def listClause? (start : String) (items : List String) : List String :=
  if items.isEmpty then [] else [start ++ "(" ++ ", ".intercalate items ++ ")"]

/-- The clauses of a new index. -/
def indexClauses (table : String) (index : Index) : List String :=
  ["CREATE"] ++ (if index.unique then ["UNIQUE"] else []) ++ ["INDEX"] ++
    (if index.concurrent then ["CONCURRENTLY"] else []) ++
    ["IF NOT EXISTS " ++ index.effectiveName table ++ " ON " ++ table] ++
    (if index.method == .btree then [] else ["USING " ++ index.method.word]) ++
    [indexKeysSql index] ++ listClause? "INCLUDE " index.included ++
    listClause? "WITH " index.storageSettings ++ clause? "TABLESPACE " index.tablespace ++
    clause? "WHERE " index.condition

/-- A referential action, unless it is the default of the database. -/
def actionClause? (start : String) (action : ReferentialAction) : List String :=
  if action == .noAction then [] else [start ++ action.sql]

/-- The clauses of a new foreign key. -/
def foreignKeyClauses (table : String) (key : ForeignKey) : List String :=
  ["ALTER TABLE " ++ table ++ " ADD CONSTRAINT " ++ key.effectiveName table,
   "FOREIGN KEY (" ++ key.column ++ ")",
   "REFERENCES " ++ key.targetTable ++ "(" ++ key.targetColumn ++ ")"] ++
    actionClause? "ON DELETE " key.onDelete ++ actionClause? "ON UPDATE " key.onUpdate ++
    (if key.deferrable then
      ["DEFERRABLE"] ++ if key.initiallyDeferred then ["INITIALLY DEFERRED"] else []
    else []) ++
    if key.notValid then ["NOT VALID"] else []

/-- The clauses of a new policy. -/
def policyClauses (table : String) (policy : Policy) : List String :=
  ["CREATE POLICY " ++ policy.name ++ " ON " ++ table] ++
    (if policy.permissive then [] else ["AS RESTRICTIVE"]) ++
    ["FOR " ++ policy.command.sql] ++
    (if policy.roles.isEmpty then [] else ["TO " ++ ", ".intercalate policy.roles]) ++
    ["USING (" ++ policy.condition ++ ")"] ++
    match policy.check? with
    | some condition => ["WITH CHECK (" ++ condition ++ ")"]
    | none => []

/-- The statement in SQL. -/
def sql : Statement → String
  | createTable table unlessExists elements partition =>
    createTableSql table unlessExists elements partition
  | dropTable table => "DROP TABLE IF EXISTS " ++ table ++ " CASCADE;"
  | addColumn table definition =>
    "ALTER TABLE " ++ table ++ " ADD COLUMN IF NOT EXISTS " ++ definition.sql ++ ";"
  | addMissing table additions =>
    Sql.guardedBlock (additions.map fun a => (a.query table, a.sql table))
  | createIndex table index => " ".intercalate (indexClauses table index) ++ ";"
  | addForeignKey table key => " ".intercalate (foreignKeyClauses table key) ++ ";"
  | enableRowSecurity table => "ALTER TABLE " ++ table ++ " ENABLE ROW LEVEL SECURITY;"
  | createPolicy table policy => " ".intercalate (policyClauses table policy) ++ ";"
  | comment target text => "COMMENT ON " ++ target.sql ++ " IS " ++ Sql.literal text ++ ";"

end Statement
end PgSchema
