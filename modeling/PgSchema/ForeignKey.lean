/-
# Foreign keys

A foreign key leads from a column to a column of another table.  The target may be left blank in
a definition; it is refused when the key is rendered.
-/
import PgSchema.Loading.Definition
import PgSchema.ReferentialAction

namespace PgSchema

/-- A foreign key of a table. -/
@[ext] structure ForeignKey where
  column : String
  targetTable : String
  targetColumn : String
  onDelete : ReferentialAction
  onUpdate : ReferentialAction
  name : Option String
  deferrable : Bool
  initiallyDeferred : Bool
  /-- Existing rows are not checked. -/
  notValid : Bool
  comment : Option String
  column_nonempty : column ≠ ""

instance : DecidableEq ForeignKey := fun _ _ => decidable_of_iff _ ForeignKey.ext_iff.symm

namespace ForeignKey

/-- The name of a foreign key of a table: its own, or one made of both ends. -/
def effectiveName (key : ForeignKey) (table : String) : String :=
  match key.name.filter (· != "") with
  | some name => name
  | none => "fk_" ++ table ++ "_" ++ key.column ++ "_" ++ key.targetTable ++ "_" ++ key.targetColumn

/-- Holds for a key whose target table is blank. -/
def isUntargeted (key : ForeignKey) : Bool := Text.allBlank key.targetTable

/-! ## Reading and writing -/

def columnField : FieldName := { name := "column" }
def targetTableField : FieldName := { name := "references_table", alias? := some "table" }
def targetColumnField : FieldName := { name := "references_column", alias? := some "references" }
def onDeleteField : FieldName := { name := "on_delete" }
def onUpdateField : FieldName := { name := "on_update" }
def nameField : FieldName := { name := "name" }
def deferrableField : FieldName := { name := "deferrable" }
def initiallyDeferredField : FieldName := { name := "initially_deferred" }
def notValidField : FieldName := { name := "not_valid" }
def commentField : FieldName := { name := "comment" }

/-- The fields of a foreign key. -/
def fields : List FieldName :=
  [columnField, targetTableField, targetColumnField, onDeleteField, onUpdateField, nameField,
   deferrableField, initiallyDeferredField, notValidField, commentField]

/-- The column that is referred to unless a definition says otherwise. -/
def defaultTargetColumn : String := "id"

/-- Reads a referential action in any of its spellings. -/
def loadAction : Document → Checked ReferentialAction
  | .text s => .ofRule (ReferentialAction.read s)
  | _ => .fault .notMember

/-- Reads a foreign key. -/
def load (d : Document) : Checked ForeignKey :=
  d.asRecord fields fun entries =>
    (fun (column : Loading.NonemptyText) targetTable targetColumn onDelete onUpdate name
        deferrable initiallyDeferred notValid comment =>
      ({ column := column.value, targetTable, targetColumn, onDelete, onUpdate, name, deferrable,
         initiallyDeferred, notValid, comment, column_nonempty := column.nonempty } : ForeignKey))
      <$> entries.required columnField Loading.nonemptyText
      <*> entries.optional targetTableField "" Loading.text
      <*> entries.optional targetColumnField defaultTargetColumn Loading.text
      <*> entries.optional onDeleteField .noAction loadAction
      <*> entries.optional onUpdateField .noAction loadAction
      <*> entries.nullable nameField Loading.text
      <*> entries.optional deferrableField false Loading.flag
      <*> entries.optional initiallyDeferredField false Loading.flag
      <*> entries.optional notValidField false Loading.flag
      <*> entries.nullable commentField Loading.text

/-- The fields of a foreign key as they are written. -/
def written (key : ForeignKey) : List Written :=
  let action (field : FieldName) (a : ReferentialAction) : Written :=
    { field, value := .ofWord a, isDefault := a == .noAction }
  let flag (field : FieldName) (b : Bool) : Written :=
    { field, value := .flag b, isDefault := !b }
  let text? (field : FieldName) (s : Option String) : Written :=
    { field, value := .ofText? s, isDefault := s.isNone }
  [{ field := columnField, value := .text key.column },
   { field := targetTableField, value := .text key.targetTable,
     isDefault := key.targetTable == "" },
   { field := targetColumnField, value := .text key.targetColumn,
     isDefault := key.targetColumn == defaultTargetColumn },
   action onDeleteField key.onDelete, action onUpdateField key.onUpdate,
   text? nameField key.name, flag deferrableField key.deferrable,
   flag initiallyDeferredField key.initiallyDeferred, flag notValidField key.notValid,
   text? commentField key.comment]

/-- Writes a foreign key as a record. -/
def save (style : Style) (key : ForeignKey) : Document := style.record key.written

instance : Definition ForeignKey := { load, save }

end ForeignKey
end PgSchema
