/-
# Indexes

An index over columns or over an expression.  An index without a name gets one from the table
and from what it covers.  `Index.validate` names the first structural rule that it breaks.
-/
import PgSchema.Loading.Definition
import PgSchema.StructureError
import PgSchema.Text.Md5

namespace PgSchema

/-- An index of a table. -/
structure Index where
  name : Option String := none
  columns : List String := []
  expression : Option String := none
  unique : Bool := false
  method : IndexMethod := .btree
  /-- The condition of a partial index. -/
  condition : Option String := none
  /-- Further columns that are stored but not searched. -/
  included : List String := []
  storageParameters : Entries := []
  fillFactor : Option Int := none
  descending : Bool := false
  nullsFirst : Option Bool := none
  operatorClass : Option String := none
  tablespace : Option String := none
  concurrent : Bool := false
  comment : Option String := none
deriving BEq

namespace Index

/-- The name of an index on a table: its own, or one made of the table and the columns, or of the
table and the start of a digest of the expression. -/
def effectiveName (index : Index) (table : String) : String :=
  match index.name.filter (· != "") with
  | some name => name
  | none =>
    let kind := if index.unique then "idx_unique" else "idx"
    match index.expression with
    | some expression =>
      kind ++ "_" ++ table ++ "_expr_" ++
        String.ofList ((Text.Md5.hexDigest expression).toList.take 8)
    | none => kind ++ "_" ++ table ++ "_" ++ "_".intercalate index.columns

/-! ## Structural rules -/

/-- An index covers columns or an expression, not both and not neither. -/
def validateCoverage (index : Index) : Except StructureError Unit :=
  match index.expression with
  | some expression =>
    if !index.columns.isEmpty then .error .indexOverdetermined
    else if Text.allBlank expression then .error .indexExpressionBlank
    else .ok ()
  | none => if index.columns.isEmpty then .error .indexUndetermined else .ok ()

/-- The access method allows what the index asks for. -/
def validateMethod (index : Index) : Except StructureError Unit :=
  let method := index.method
  if !method.allowsMultipleColumns && 1 < index.columns.length then
    .error (.indexSingleColumn method)
  else if !method.allowsOrdering && (index.descending || index.nullsFirst.isSome) then
    .error (.indexUnordered method)
  else if !index.included.isEmpty && !method.allowsInclude then .error (.indexNoInclude method)
  else if index.unique && !method.allowsUnique then .error (.indexNotUnique method)
  else .ok ()

/-- The fill factor is a percentage from 10 to 100 on a method that has one. -/
def validateFillFactor (index : Index) : Except StructureError Unit :=
  match index.fillFactor with
  | none => .ok ()
  | some n =>
    if n < 10 || 100 < n then .error (.fillFactorOutOfRange n)
    else if !index.method.allowsFillFactor then .error (.fillFactorNotAllowed index.method)
    else .ok ()

/-- The access method takes each storage parameter. -/
def validateStorage (index : Index) : Except StructureError Unit :=
  let parameters := index.storageParameters.map (·.1)
  match parameters.find? fun parameter => !index.method.allowsStorageParameter parameter with
  | some parameter => .error (.storageParameterNotAllowed parameter index.method)
  | none => .ok ()

/-- Checks coverage, method, fill factor and storage parameters, in this order. -/
def validate (index : Index) : Except StructureError Unit := do
  index.validateCoverage
  index.validateMethod
  index.validateFillFactor
  index.validateStorage

/-- The value of a storage parameter: flags are on or off. -/
def storageValue : Document → String
  | .flag true => "on"
  | .flag false => "off"
  | d => d.printed

/-- The storage parameters as written, the fill factor first. -/
def storageSettings (index : Index) : List String :=
  (index.fillFactor.map fun n => "fillfactor = " ++ toString n).toList ++
    index.storageParameters.map fun entry => entry.1 ++ " = " ++ storageValue entry.2

/-! ## Reading and writing -/

def nameField : FieldName := { name := "name" }
def columnsField : FieldName := { name := "columns" }
def expressionField : FieldName := { name := "expression" }
def uniqueField : FieldName := { name := "unique" }
def methodField : FieldName := { name := "method", alias? := some "using" }
def conditionField : FieldName := { name := "condition", alias? := some "where" }
def includedField : FieldName := { name := "include" }
def storageField : FieldName := { name := "storage_parameters" }
def fillFactorField : FieldName := { name := "fill_factor" }
def descendingField : FieldName := { name := "descending" }
def nullsFirstField : FieldName := { name := "nulls_first" }
def operatorClassField : FieldName := { name := "op_class" }
def tablespaceField : FieldName := { name := "tablespace" }
def concurrentField : FieldName := { name := "concurrent" }
def commentField : FieldName := { name := "comment" }

/-- The fields of an index. -/
def fields : List FieldName :=
  [nameField, columnsField, expressionField, uniqueField, methodField, conditionField,
   includedField, storageField, fillFactorField, descendingField, nullsFirstField,
   operatorClassField, tablespaceField, concurrentField, commentField]

/-- Reads an access method in any of its spellings. -/
def loadMethod : Document → Checked IndexMethod
  | .text s => .ofRule (IndexMethod.read s)
  | _ => .fault .notMember

/-- Reads a record of any values. -/
def loadMapping : Document → Checked Entries
  | .record entries => .ok entries
  | _ => .fault .notMapping

/-- Reads an index. -/
def load (d : Document) : Checked Index :=
  d.asRecord fields fun entries =>
    (fun name columns expression unique method condition included storageParameters fillFactor
        descending nullsFirst operatorClass tablespace concurrent comment =>
      ({ name, columns, expression, unique, method, condition, included, storageParameters,
         fillFactor, descending, nullsFirst, operatorClass, tablespace, concurrent,
         comment } : Index))
      <$> entries.nullable nameField Loading.text
      <*> entries.optional columnsField [] Loading.oneOrMoreTexts
      <*> entries.nullable expressionField Loading.text
      <*> entries.optional uniqueField false Loading.flag
      <*> entries.optional methodField .btree loadMethod
      <*> entries.nullable conditionField Loading.text
      <*> entries.optional includedField [] Loading.oneOrMoreTexts
      <*> entries.optional storageField [] loadMapping
      <*> entries.nullable fillFactorField Loading.integer
      <*> entries.optional descendingField false Loading.flag
      <*> entries.nullable nullsFirstField Loading.flag
      <*> entries.nullable operatorClassField Loading.text
      <*> entries.nullable tablespaceField Loading.text
      <*> entries.optional concurrentField false Loading.flag
      <*> entries.nullable commentField Loading.text

/-- The fields of an index as they are written. -/
def written (index : Index) : List Written :=
  let text (field : FieldName) (s : Option String) : Written :=
    { field, value := .ofText? s, isDefault := s.isNone }
  let flag (field : FieldName) (b : Bool) : Written :=
    { field, value := .flag b, isDefault := !b }
  let texts (field : FieldName) (items : List String) : Written :=
    { field, value := .ofTexts items, isDefault := items.isEmpty }
  [text nameField index.name, texts columnsField index.columns,
   text expressionField index.expression, flag uniqueField index.unique,
   { field := methodField, value := .ofWord index.method, isDefault := index.method == .btree },
   text conditionField index.condition, texts includedField index.included,
   { field := storageField, value := .record index.storageParameters,
     isDefault := index.storageParameters.isEmpty },
   { field := fillFactorField, value := (index.fillFactor.map Document.integer).getD .null,
     isDefault := index.fillFactor.isNone },
   flag descendingField index.descending,
   { field := nullsFirstField, value := (index.nullsFirst.map Document.flag).getD .null,
     isDefault := index.nullsFirst.isNone },
   text operatorClassField index.operatorClass, text tablespaceField index.tablespace,
   flag concurrentField index.concurrent, text commentField index.comment]

/-- Writes an index as a record. -/
def save (style : Style) (index : Index) : Document := style.record index.written

instance : Definition Index := { load, save }

end Index
end PgSchema
