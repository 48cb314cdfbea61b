/-
# Columns

A column with its type, keys, default, checks and rules.  A column of the primary key counts as
not null and unique whatever its own flags say.
-/
import PgSchema.DefaultValue
import PgSchema.SqlType.Load
import PgSchema.ValueRule.Load

namespace PgSchema

/-- A column of a table. -/
structure Column where
  name : String
  type : SqlType
  nullable : Bool
  primaryKey : Bool
  unique : Bool
  default : Option DefaultValue
  /-- Conditions given in SQL. -/
  conditions : List String
  rules : List ValueRule
  collation : Option String
  comment : Option String
  name_nonempty : name ≠ ""
deriving BEq

namespace Column

/-- The conditions on the values of the column: the given ones, then those of the rules. -/
def checks (c : Column) : List String := c.conditions ++ c.rules.map (·.sql c.name)

/-- Holds when the column may be null. -/
def effectiveNullable (c : Column) : Bool := c.nullable && !c.primaryKey

/-- Holds when the values of the column are distinct. -/
def effectiveUnique (c : Column) : Bool := c.unique || c.primaryKey

/-- Holds when the column has a default. -/
def hasDefault (c : Column) : Bool := c.default.isSome

/-! ## Reading and writing -/

def nameField : FieldName := { name := "name" }
def typeField : FieldName := { name := "type" }
def nullableField : FieldName := { name := "is_nullable", alias? := some "nullable" }
def primaryKeyField : FieldName := { name := "is_primary_key", alias? := some "primary_key" }
def uniqueField : FieldName := { name := "is_unique", alias? := some "unique" }
def defaultField : FieldName := { name := "default" }
def conditionsField : FieldName := { name := "check_constraints", alias? := some "checks" }
def rulesField : FieldName := { name := "validators" }
def collationField : FieldName := { name := "collation" }
def commentField : FieldName := { name := "comment" }

/-- The fields of a column. -/
def fields : List FieldName :=
  [nameField, typeField, nullableField, primaryKeyField, uniqueField, defaultField,
   conditionsField, rulesField, collationField, commentField]

/-- Reads a column. -/
def load (d : Document) : Checked Column :=
  d.asRecord fields fun entries =>
    (fun (name : Loading.NonemptyText) type nullable primaryKey unique default conditions
        rules collation comment =>
      ({ name := name.value, type, nullable, primaryKey, unique, default, conditions, rules,
         collation, comment, name_nonempty := name.nonempty } : Column))
      <$> entries.required nameField Loading.nonemptyText
      <*> entries.required typeField SqlType.load
      <*> entries.optional nullableField true Loading.flag
      <*> entries.optional primaryKeyField false Loading.flag
      <*> entries.optional uniqueField false Loading.flag
      <*> entries.nullable defaultField DefaultValue.load
      <*> entries.optional conditionsField [] Loading.oneOrMoreTexts
      <*> entries.optional rulesField [] ValueRule.loadList
      <*> entries.nullable collationField Loading.text
      <*> entries.nullable commentField Loading.text

/-- The fields of a column as they are written. -/
def written (style : Style) (c : Column) : List Written :=
  [{ field := nameField, value := .text c.name },
   { field := typeField, value := c.type.save style },
   { field := nullableField, value := .flag c.nullable, isDefault := c.nullable },
   { field := primaryKeyField, value := .flag c.primaryKey, isDefault := !c.primaryKey },
   { field := uniqueField, value := .flag c.unique, isDefault := !c.unique },
   { field := defaultField, value := (c.default.map (·.save style)).getD .null,
     isDefault := c.default.isNone },
   { field := conditionsField, value := .ofTexts c.conditions,
     isDefault := c.conditions.isEmpty },
   { field := rulesField, value := .list (ValueRule.saveParts style c.rules),
     isDefault := c.rules.isEmpty },
   { field := collationField, value := .ofText? c.collation, isDefault := c.collation.isNone },
   { field := commentField, value := .ofText? c.comment, isDefault := c.comment.isNone }]

/-- Writes a column as a record. -/
def save (style : Style) (c : Column) : Document := style.record (c.written style)

instance : Definition Column := { load, save }

end Column
end PgSchema
