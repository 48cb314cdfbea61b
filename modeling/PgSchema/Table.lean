/-
# Tables

A table is the unit that is compiled: its columns with distinct names, and all that refers to
them.  The effective primary key takes in the columns that partition the table.
-/
import PgSchema.Column
import PgSchema.Constraint
import PgSchema.ForeignKey
import PgSchema.Index
import PgSchema.Policy

namespace PgSchema

/-- The definition of a table. -/
structure Table where
  name : String
  columns : List Column
  indexes : List Index
  policies : List Policy
  foreignKeys : List ForeignKey
  constraints : List Constraint
  comment : Option String
  rowSecurity : Bool
  partition : Option Partition
  name_nonempty : name ≠ ""
  columns_nodup : (columns.map (·.name)).Nodup

namespace Table

instance : BEq Table where
  beq a b :=
    a.name == b.name && a.columns == b.columns && a.indexes == b.indexes &&
      a.policies == b.policies && a.foreignKeys == b.foreignKeys &&
      a.constraints == b.constraints && a.comment == b.comment &&
      a.rowSecurity == b.rowSecurity && a.partition == b.partition

/-- The names of the columns, in declaration order. -/
def columnNames (t : Table) : List String := t.columns.map (·.name)

/-- The column of a name. -/
def column? (t : Table) (name : String) : Option Column := t.columns.find? fun c => c.name == name

/-- Holds when the table has a column of the name. -/
def hasColumn (t : Table) (name : String) : Bool := t.columnNames.contains name

/-- The columns flagged as primary key, in declaration order. -/
def declaredKey (t : Table) : List String := (t.columns.filter (·.primaryKey)).map (·.name)

/-- The declared key followed by the partition columns that it lacks; a table without a declared
key has none. -/
def effectiveKey (t : Table) : List String :=
  let declared := t.declaredKey
  match declared, t.partition with
  | _ :: _, some p => declared ++ p.columns.filter fun c => !declared.contains c
  | _, _ => declared

/-- Holds for a declared key of several columns. -/
def hasCompositeKey (t : Table) : Bool := 1 < t.declaredKey.length

/-- Holds for an effective key of several columns. -/
def hasCompositeEffectiveKey (t : Table) : Bool := 1 < t.effectiveKey.length

/-- The extensions that the defaults of the columns need, sorted and without repetition. -/
def requiredExtensions (t : Table) : List String :=
  let needed := (t.columns.filterMap (·.default)).flatMap (·.requiredExtensions)
  needed.eraseDups.mergeSort fun a b => a ≤ b

/-! ## Reading and writing -/

def nameField : FieldName := { name := "name" }
def columnsField : FieldName := { name := "columns" }
def indexesField : FieldName := { name := "indexes" }
def policiesField : FieldName := { name := "policies" }
def foreignKeysField : FieldName := { name := "foreign_keys" }
def constraintsField : FieldName := { name := "constraints" }
def commentField : FieldName := { name := "comment" }
def rowSecurityField : FieldName := { name := "enable_rls" }
def partitionField : FieldName := { name := "partition" }

/-- The fields of a table. -/
def fields : List FieldName :=
  [nameField, columnsField, indexesField, policiesField, foreignKeysField, constraintsField,
   commentField, rowSecurityField, partitionField]

/-- The first name that occurs again after itself is met a second time. -/
def firstRepeated? (seen : List String) : List String → Option String
  | [] => none
  | name :: names =>
    if seen.contains name then some name else firstRepeated? (name :: seen) names

/-- Columns with distinct names. -/
abbrev Columns := { columns : List Column // (columns.map (·.name)).Nodup }

/-- Refuses columns of one name. -/
def distinctColumns (columns : List Column) : Checked Columns :=
  if h : (columns.map (·.name)).Nodup then .ok ⟨columns, h⟩
  else
    .broken (.duplicateColumn ((firstRepeated? [] (columns.map (·.name))).getD ""))

/-- Reads a table. -/
def load (d : Document) : Checked Table :=
  d.asRecord fields fun entries =>
    (fun (name : Loading.NonemptyText) (columns : Columns) indexes policies foreignKeys
        constraints comment rowSecurity partition =>
      ({ name := name.value, columns := columns.val, indexes, policies, foreignKeys, constraints,
         comment, rowSecurity, partition, name_nonempty := name.nonempty,
         columns_nodup := columns.property } : Table))
      <$> entries.required nameField Loading.nonemptyText
      <*> entries.optional columnsField ⟨[], by simp⟩ (fun d =>
        (Loading.list Column.load d).andThen distinctColumns)
      <*> entries.optional indexesField [] (Loading.list Index.load)
      <*> entries.optional policiesField [] (Loading.list Policy.load)
      <*> entries.optional foreignKeysField [] (Loading.list ForeignKey.load)
      <*> entries.optional constraintsField [] (Loading.list Constraint.load)
      <*> entries.nullable commentField Loading.text
      <*> entries.optional rowSecurityField false Loading.flag
      <*> entries.nullable partitionField Partition.load

/-- The fields of a table as they are written. -/
def written (style : Style) (t : Table) : List Written :=
  let list {α : Type} (field : FieldName) (write : α → Document) (items : List α) : Written :=
    { field, value := .list (items.map write), isDefault := items.isEmpty }
  [{ field := nameField, value := .text t.name },
   list columnsField (·.save style) t.columns, list indexesField (·.save style) t.indexes,
   list policiesField (·.save style) t.policies,
   list foreignKeysField (·.save style) t.foreignKeys,
   list constraintsField (·.save style) t.constraints,
   { field := commentField, value := .ofText? t.comment, isDefault := t.comment.isNone },
   { field := rowSecurityField, value := .flag t.rowSecurity, isDefault := !t.rowSecurity },
   { field := partitionField, value := (t.partition.map (·.save style)).getD .null,
     isDefault := t.partition.isNone }]

/-- Writes a table as a record. -/
def save (style : Style) (t : Table) : Document := style.record (t.written style)

instance : Definition Table := { load, save }

end Table
end PgSchema
