/-
# Table constraints and partitioning

The named constraints of a table and the strategies that partition it.  `Constraint.validate`
and `Partition.validate` name the first structural rule that a definition breaks.
-/
import PgSchema.Loading.Definition
import PgSchema.StructureError

namespace PgSchema

/-! ## Constraints -/

/-- What a table constraint demands. -/
inductive ConstraintRule
  | check (condition : String)
  | unique (columns : List String)
  | primaryKey (columns : List String)
deriving DecidableEq, Repr

/-- A named constraint of a table. -/
structure Constraint where
  name : String
  rule : ConstraintRule
  comment : Option String
deriving DecidableEq, Repr

/-- Refuses a list of columns that is empty or has a blank name in it. -/
def ColumnList.validate (list : ColumnList) (columns : List String) :
    Except StructureError Unit :=
  if columns.isEmpty then .error (.columnsMissing list)
  else if columns.any Text.allBlank then .error (.columnBlank list)
  else .ok ()

namespace Constraint

/-- Holds for a name of ASCII letters, digits and underscores that does not start with a digit;
one line feed may follow it. -/
def isWellNamed (name : String) : Bool :=
  let isWordChar (c : Char) : Bool := c.isAlphanum || c == '_'
  match name.toList with
  | [] => false
  | c :: cs =>
    (c.isAlpha || c == '_') &&
      (let rest := cs.dropWhile isWordChar
       rest == [] || rest == ['\n'])

/-- Refuses a name that is empty or not a plain identifier. -/
def validateName (name : String) : Except StructureError Unit :=
  if name = "" then .error .constraintUnnamed
  else if isWellNamed name then .ok ()
  else .error (.constraintMisnamed name)

/-- Checks the name of a constraint, then what it demands. -/
def validate (c : Constraint) : Except StructureError Unit := do
  validateName c.name
  match c.rule with
  | .check condition =>
    if Text.allBlank condition then .error (.checkEmpty c.name) else .ok ()
  | .unique columns => (ColumnList.unique c.name).validate columns
  | .primaryKey columns => (ColumnList.primaryKey c.name).validate columns

/-- The columns that a constraint names. -/
def columns (c : Constraint) : List String :=
  match c.rule with
  | .check _ => []
  | .unique columns => columns
  | .primaryKey columns => columns

/-- What the constraint demands, in SQL. -/
def ruleSql : ConstraintRule → String
  | .check condition => "CHECK (" ++ condition ++ ")"
  | .unique columns => "UNIQUE (" ++ ", ".intercalate columns ++ ")"
  | .primaryKey columns => "PRIMARY KEY (" ++ ", ".intercalate columns ++ ")"

/-- The constraint in SQL. -/
def sql (c : Constraint) : String := "CONSTRAINT " ++ c.name ++ " " ++ ruleSql c.rule

/-- The kinds of constraints. -/
inductive Tag
  | check | unique | primaryKey
deriving DecidableEq, Repr

/-- The word for a kind of constraint. -/
def Tag.word : Tag → String
  | check => "check"
  | unique => "unique"
  | primaryKey => "primary_key"

instance : Vocabulary Tag := ⟨[.check, .unique, .primaryKey], Tag.word⟩

instance : LawfulVocabulary Tag := ⟨fun tag => by cases tag <;> rfl⟩

/-- The kind of a constraint. -/
def tag (c : Constraint) : Tag :=
  match c.rule with
  | .check _ => .check
  | .unique _ => .unique
  | .primaryKey _ => .primaryKey

def nameField : FieldName := { name := "name" }
def commentField : FieldName := { name := "comment" }
def conditionField : FieldName := { name := "condition" }
def columnsField : FieldName := { name := "columns" }

/-- The fields of a kind of constraint. -/
def fields : Tag → List FieldName
  | .check => [nameField, commentField, tagKey, conditionField]
  | .unique | .primaryKey => [nameField, commentField, tagKey, columnsField]

/-- Reads what a kind of constraint demands. -/
def loadRule (tag : Tag) (entries : Entries) : Checked ConstraintRule :=
  match tag with
  | .check => .check <$> entries.required conditionField Loading.text
  | .unique => .unique <$> entries.optional columnsField [] Loading.texts
  | .primaryKey => .primaryKey <$> entries.optional columnsField [] Loading.texts

/-- Reads a constraint of the given kind. -/
def ofRecord (tag : Tag) (entries : Entries) : Checked Constraint :=
  entries.asRecord (fields tag) fun entries =>
    (fun name comment _ rule => { name, rule, comment })
      <$> entries.required nameField Loading.text
      <*> entries.nullable commentField Loading.text
      <*> entries.tagged tag.word
      <*> loadRule tag entries

/-- Reads a constraint. -/
def load (d : Document) : Checked Constraint :=
  d.byTag fun word => (Vocabulary.ofWord? word).map ofRecord

/-- Reads a constraint whose kind is known beforehand. -/
def loadAs (tag : Tag) : Document → Checked Constraint
  | .record entries => ofRecord tag entries
  | _ => .fault .notRecord

/-- The fields of a constraint as they are written. -/
def written (c : Constraint) : List Written :=
  [{ field := nameField, value := .text c.name },
   { field := commentField, value := .ofText? c.comment, isDefault := c.comment.isNone },
   { field := tagKey, value := .ofWord c.tag, isDefault := true },
   match c.rule with
   | .check condition => { field := conditionField, value := .text condition }
   | .unique columns | .primaryKey columns =>
     { field := columnsField, value := .ofTexts columns, isDefault := columns.isEmpty }]

/-- Writes a constraint as a record. -/
def save (style : Style) (c : Constraint) : Document := style.record c.written

instance : Definition Constraint := { load, save, reload := fun c => loadAs c.tag }

end Constraint

/-! ## Partitioning -/

/-- How rows are assigned to partitions. -/
inductive PartitionMethod
  | range | hash | list
deriving DecidableEq, Repr

namespace PartitionMethod

/-- The word for a method. -/
def word : PartitionMethod → String
  | range => "range"
  | hash => "hash"
  | list => "list"

instance : Vocabulary PartitionMethod := ⟨[.range, .hash, .list], word⟩

instance : LawfulVocabulary PartitionMethod := ⟨fun method => by cases method <;> rfl⟩

/-- The method in SQL. -/
def sql : PartitionMethod → String
  | range => "RANGE"
  | hash => "HASH"
  | list => "LIST"

/-- The method at the start of a message. -/
def title : PartitionMethod → String
  | range => "Range"
  | hash => "Hash"
  | list => "List"

end PartitionMethod

/-- The partitioning of a table: a method and the columns that it looks at. -/
structure Partition where
  method : PartitionMethod
  columns : List String
deriving DecidableEq, Repr

namespace Partition

/-- Refuses a list of columns that is empty or has a blank name in it. -/
def validate (p : Partition) : Except StructureError Unit :=
  (ColumnList.partition p.method.title).validate p.columns

/-- The partitioning in SQL. -/
def sql (p : Partition) : String :=
  "PARTITION BY " ++ p.method.sql ++ " (" ++ ", ".intercalate p.columns ++ ")"

def columnsField : FieldName := { name := "columns" }

/-- The fields of a partitioning. -/
def fields : List FieldName := [columnsField, tagKey]

/-- Reads a partitioning by the given method. -/
def ofRecord (method : PartitionMethod) (entries : Entries) : Checked Partition :=
  entries.asRecord fields fun entries =>
    (fun columns _ => { method, columns })
      <$> entries.optional columnsField [] Loading.texts
      <*> entries.tagged method.word

/-- Reads a partitioning. -/
def load (d : Document) : Checked Partition :=
  d.byTag fun word => (Vocabulary.ofWord? word).map ofRecord

/-- Reads a partitioning whose method is known beforehand. -/
def loadAs (method : PartitionMethod) : Document → Checked Partition
  | .record entries => ofRecord method entries
  | _ => .fault .notRecord

/-- The fields of a partitioning as they are written. -/
def written (p : Partition) : List Written :=
  [{ field := columnsField, value := .ofTexts p.columns, isDefault := p.columns.isEmpty },
   { field := tagKey, value := .ofWord p.method, isDefault := true }]

/-- Writes a partitioning as a record. -/
def save (style : Style) (p : Partition) : Document := style.record p.written

instance : Definition Partition := { load, save, reload := fun p => loadAs p.method }

end Partition
end PgSchema
