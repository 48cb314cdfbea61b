/-
# Reading and writing records

A field has a name and perhaps an alias, and a record may use either; the alias wins.  Keys that
no field took are faults.  The same fields write a value back, in one of three styles.
-/
import PgSchema.Loading.Scalar

namespace PgSchema

/-- The name of a field, and the alias under which it is written. -/
structure FieldName where
  name : String
  alias? : Option String := none
deriving DecidableEq, Repr

namespace FieldName

/-- The key under which the field is written: its alias, if it has one. -/
def label (field : FieldName) : String := field.alias?.getD field.name

/-- The keys under which the field is found, the preferred one first. -/
def keys (field : FieldName) : List String := field.alias?.toList ++ [field.name]

/-- The key that a record uses for the field, with its value. -/
def locate? (field : FieldName) (entries : Entries) : Option (String × Document) :=
  field.keys.findSome? fun key => (entries.find? key).map fun value => (key, value)

end FieldName

namespace Entries

/-- Reads a field that must be present. -/
def required (entries : Entries) (field : FieldName) (read : Document → Checked α) : Checked α :=
  match field.locate? entries with
  | some (key, value) => (read value).under (.key key)
  | none => (Checked.fault .missing).under (.key field.label)

/-- Reads a field that has a default. -/
def optional (entries : Entries) (field : FieldName) (default : α)
    (read : Document → Checked α) : Checked α :=
  match field.locate? entries with
  | some (key, value) => (read value).under (.key key)
  | none => .ok default

/-- Reads a field that may be absent or null. -/
def nullable (entries : Entries) (field : FieldName) (read : Document → Checked α) :
    Checked (Option α) :=
  entries.optional field none (Loading.orNull read)

/-- The keys that no field takes, in the order of the record. -/
def unknownKeys (entries : Entries) (fields : List FieldName) : List String :=
  let taken := fields.filterMap fun field => (field.locate? entries).map (·.1)
  (entries.map (·.1)).filter fun key => !taken.contains key

/-- Refuses keys that no field takes. -/
def closed (entries : Entries) (fields : List FieldName) : Checked Unit :=
  match entries.unknownKeys fields with
  | [] => .ok ()
  | unknown => .failed (.faults (unknown.map fun key => ⟨[.key key], .unknownKey⟩))

/-- Reads a record with the given fields: their faults come before those of unknown keys. -/
def asRecord (entries : Entries) (fields : List FieldName) (body : Entries → Checked α) :
    Checked α :=
  (fun a _ => a) <$> body entries <*> entries.closed fields

end Entries

/-- Reads a record with the given fields. -/
def Document.asRecord (d : Document) (fields : List FieldName) (body : Entries → Checked α) :
    Checked α :=
  match d with
  | .record entries => Entries.asRecord entries fields body
  | _ => .fault .notRecord

/-! ## Tagged records -/

/-- The key that holds the tag of a tagged record. -/
def tagKey : FieldName := { name := "type" }

/-- Reads a record by its tag: `variant?` gives the reader for a known tag. -/
def Document.byTag (d : Document) (variant? : String → Option (Entries → Checked α)) :
    Checked α :=
  match d with
  | .record entries =>
    match Entries.find? entries tagKey.name with
    | none => .fault .tagMissing
    | some (.text tag) =>
      match variant? tag with
      | some read => (read entries).under (.key tag)
      | none => .fault .tagUnknown
    | some _ => .fault .tagUnknown
  | _ => .fault .notTagged

/-- Accepts a tag field that is absent or spells the given tag. -/
def Entries.tagged (entries : Entries) (tag : String) : Checked Unit :=
  entries.optional tagKey () fun
    | .text s => if s == tag then .ok () else .fault .wrongTag
    | _ => .fault .wrongTag

/-! ## Writing -/

/-- How much of a value is written. -/
inductive Style
  /-- Every field under its label, absent values left out. -/
  | full
  /-- As `full`, without the fields that have their default. -/
  | brief
  /-- Every field under its name, absent values as null. -/
  | internal
deriving DecidableEq, Repr

/-- A field of a value on its way into a record. -/
structure Written where
  field : FieldName
  value : Document
  isDefault : Bool := false

/-- Holds for the value that stands for absence. -/
def Document.isNull : Document → Bool
  | .null => true
  | _ => false

/-- Holds when the style writes the field. -/
def Style.keeps (style : Style) (w : Written) : Bool :=
  match style with
  | .full => !w.value.isNull
  | .brief => !w.value.isNull && !w.isDefault
  | .internal => true

/-- The key under which the style writes a field. -/
def Style.key (style : Style) (field : FieldName) : String :=
  match style with
  | .internal => field.name
  | _ => field.label

/-- The entries that the style writes. -/
def Style.entries (style : Style) (fields : List Written) : Entries :=
  (fields.filter style.keeps).map fun w => (style.key w.field, w.value)

/-- The record that the style writes. -/
def Style.record (style : Style) (fields : List Written) : Document :=
  .record (style.entries fields)

/-- A text, or null if it is absent. -/
def Document.ofText? : Option String → Document
  | some s => .text s
  | none => .null

/-- A list of texts. -/
def Document.ofTexts (items : List String) : Document := .list (items.map .text)

/-- The word for a value. -/
def Document.ofWord [Vocabulary α] (a : α) : Document := .text (Vocabulary.word a)

/-- The record with some fields replaced, as it is read again to change a value. -/
def Document.changed (d : Document) (changes : Entries) : Document :=
  match d with
  | .record entries => .record (Entries.putAll entries changes)
  | d => d

end PgSchema
