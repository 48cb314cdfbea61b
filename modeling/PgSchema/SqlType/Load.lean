/-
# Reading and writing column types

A column type is written as type text or as a record of its parameters.  `SqlType.load` reads
both and `SqlType.save` writes the record.
-/
import PgSchema.Loading.Definition
import PgSchema.SqlType.Text

namespace PgSchema.SqlType

/-! ## Fields -/

def kindField : FieldName := { name := "kind" }
def lengthField : FieldName := { name := "length" }
def precisionField : FieldName := { name := "precision" }
def scaleField : FieldName := { name := "scale" }
def elementField : FieldName := { name := "element" }
def nameField : FieldName := { name := "name" }

/-- The fields of a column type. -/
def fields : List FieldName :=
  [kindField, lengthField, precisionField, scaleField, elementField, nameField]

/-! ## Reading -/

/-- A number written in type text, checked as the field that it stands for. -/
def checkedParam (field : FieldName) (read : Document → Checked α) (n : Option Int) :
    Checked (Option α) :=
  match n with
  | none => .ok none
  | some n => (some <$> read (.integer n)).under (.key field.name)

/-- The type that a text without array brackets stands for. -/
def ofBase : BaseText → Checked SqlType
  | .custom name => .ofRule (ofParts { kind := .custom, name := some name })
  | .known kind length precision scale =>
    ((fun length precision scale => ({ kind, length, precision, scale } : Parts))
      <$> checkedParam lengthField Loading.positive length
      <*> checkedParam precisionField Loading.natural precision
      <*> checkedParam scaleField Loading.natural scale).andThen fun parts =>
        .ofRule (ofParts parts)

/-- An array type of the given depth over what was read. -/
def nested (base : Checked SqlType) : Nat → Checked SqlType
  | 0 => base
  | depth + 1 => array <$> (nested base depth).under (.key elementField.name)

/-- Reads type text. -/
def ofText (s : String) : Checked SqlType :=
  match TypeText.parse s with
  | .ok text => nested (ofBase text.base) text.depth
  | .error (.badInteger fault) => .broken (.badInteger fault)
  | .error .missingNumber => .failed .missingNumber

/-- The field for the element, looked up among the entries read as types. -/
def elementOf (entries : Entries) (readings : List (String × Checked SqlType)) :
    Checked (Option SqlType) :=
  let key := elementField.name
  match entries.find? key with
  | none => .ok none
  | some .null => .ok none
  | some _ =>
    match readings.find? fun reading => reading.1 == key with
    | some (_, reading) => (some <$> reading).under (.key key)
    | none => .ok none

/-- Reads a record of parameters, given its entries read as types. -/
def ofRecord (entries : Entries) (readings : List (String × Checked SqlType)) :
    Checked SqlType :=
  (entries.asRecord fields fun entries =>
    (fun kind length precision scale element name =>
      ({ kind, length, precision, scale, element, name } : Parts))
      <$> entries.required kindField Loading.member
      <*> entries.nullable lengthField Loading.positive
      <*> entries.nullable precisionField Loading.natural
      <*> entries.nullable scaleField Loading.natural
      <*> elementOf entries readings
      <*> entries.nullable nameField Loading.text).andThen fun parts =>
        .ofRule (ofParts parts)

mutual

/-- Reads a column type. -/
def load : Document → Checked SqlType
  | .text s => ofText s
  | .record entries => ofRecord entries (loadEntries entries)
  | _ => .fault .notRecord

/-- Reads each entry of a record as a column type. -/
def loadEntries : List (String × Document) → List (String × Checked SqlType)
  | [] => []
  | (key, value) :: entries => (key, load value) :: loadEntries entries

end

/-! ## Writing -/

/-- An optional number. -/
def number? : Option Nat → Document
  | some n => .integer n
  | none => .null

/-- The fields of a type given by its parameters and its written element. -/
def writtenParts (p : Parts) (element : Document) : List Written :=
  [{ field := kindField, value := .ofWord p.kind },
   { field := lengthField, value := number? (p.length.map (·.val)), isDefault := p.length.isNone },
   { field := precisionField, value := number? p.precision, isDefault := p.precision.isNone },
   { field := scaleField, value := number? p.scale, isDefault := p.scale.isNone },
   { field := elementField, value := element, isDefault := p.element.isNone },
   { field := nameField, value := .ofText? p.name, isDefault := p.name.isNone }]

/-- Writes a column type as a record. -/
def save (style : Style) : SqlType → Document
  | array element => style.record (writtenParts (array element).parts (element.save style))
  | t => style.record (writtenParts t.parts .null)

instance : Definition SqlType := { load, save }

end PgSchema.SqlType
