/-
# Reading and writing value rules

A rule is a record whose `type` names the kind of rule.  Composed rules are read by recursion on
the document.
-/
import PgSchema.Loading.Definition
import PgSchema.ValueRule

namespace PgSchema.ValueRule

/-- The kinds of rules. -/
inductive Tag
  | range | length | pattern | enum | email | url | alpha | alphanumeric | all | any
deriving DecidableEq, Repr

/-- The word for a kind of rule. -/
def Tag.word : Tag → String
  | range => "range"
  | length => "length"
  | pattern => "pattern"
  | enum => "enum"
  | email => "email"
  | url => "url"
  | alpha => "alpha"
  | alphanumeric => "alphanumeric"
  | all => "all"
  | any => "any"

instance : Vocabulary Tag :=
  ⟨[.range, .length, .pattern, .enum, .email, .url, .alpha, .alphanumeric, .all, .any], Tag.word⟩

instance : LawfulVocabulary Tag := ⟨fun tag => by cases tag <;> rfl⟩

/-- The kind of a rule. -/
def tag : ValueRule → Tag
  | range _ => .range
  | length _ => .length
  | pattern .. => .pattern
  | oneOf .. => .enum
  | email => .email
  | url => .url
  | letters _ => .alpha
  | alphanumeric .. => .alphanumeric
  | all .. => .all
  | any .. => .any

/-! ## Fields -/

def minField : FieldName := { name := "min" }
def maxField : FieldName := { name := "max" }
def patternField : FieldName := { name := "pattern" }
def messageField : FieldName := { name := "message" }
def valuesField : FieldName := { name := "values" }
def spacesField : FieldName := { name := "allow_spaces" }
def underscoresField : FieldName := { name := "allow_underscores" }
def partsField : FieldName := { name := "validators" }

/-- The fields of a kind of rule. -/
def fields : Tag → List FieldName
  | .range | .length => [minField, maxField, tagKey]
  | .pattern => [tagKey, patternField, messageField]
  | .enum => [tagKey, valuesField]
  | .email | .url => [tagKey]
  | .alpha => [tagKey, spacesField]
  | .alphanumeric => [tagKey, spacesField, underscoresField]
  | .all | .any => [tagKey, partsField]

/-! ## Reading -/

/-- Refuses the empty list. -/
def nonemptyList (xs : List α) : Checked (α × List α) :=
  match xs with
  | [] => .fault .emptyList
  | x :: xs => .ok (x, xs)

/-- Reads the bounds of a rule. -/
def loadBounds (tag : Tag) (entries : Entries) : Checked Bounds :=
  (entries.asRecord (fields tag) fun entries =>
    (fun min max _ => (min, max))
      <$> entries.nullable minField Loading.float
      <*> entries.nullable maxField Loading.float
      <*> entries.tagged tag.word).andThen fun (min, max) => .ofRule (Bounds.make min max)

/-- The parts of a composed rule, looked up among the entries read as lists of rules. -/
def loadParts (entries : Entries) (readings : List (String × Checked (List ValueRule))) :
    Checked (ValueRule × List ValueRule) :=
  entries.required partsField fun _ =>
    match readings.find? fun reading => reading.1 == partsField.name with
    | some (_, reading) => reading.andThen nonemptyList
    | none => .fault .notList

/-- Reads a rule of the given kind, given its entries read as lists of rules. -/
def ofRecord (tag : Tag) (readings : List (String × Checked (List ValueRule)))
    (entries : Entries) : Checked ValueRule :=
  match tag with
  | .range => range <$> loadBounds .range entries
  | .length => length <$> loadBounds .length entries
  | .pattern => entries.asRecord (fields .pattern) fun entries =>
    (fun _ (regex : Loading.NonemptyText) message => pattern regex.value regex.nonempty message)
      <$> entries.tagged Tag.pattern.word
      <*> entries.required patternField Loading.nonemptyText
      <*> entries.nullable messageField Loading.text
  | .enum => entries.asRecord (fields .enum) fun entries =>
    (fun _ (values : String × List String) => oneOf values.1 values.2)
      <$> entries.tagged Tag.enum.word
      <*> entries.required valuesField fun d => (Loading.texts d).andThen nonemptyList
  | .email => entries.asRecord (fields .email) fun entries =>
    (fun _ => email) <$> entries.tagged Tag.email.word
  | .url => entries.asRecord (fields .url) fun entries =>
    (fun _ => url) <$> entries.tagged Tag.url.word
  | .alpha => entries.asRecord (fields .alpha) fun entries =>
    (fun _ spaces => letters spaces)
      <$> entries.tagged Tag.alpha.word
      <*> entries.optional spacesField false Loading.flag
  | .alphanumeric => entries.asRecord (fields .alphanumeric) fun entries =>
    (fun _ spaces underscores => alphanumeric spaces underscores)
      <$> entries.tagged Tag.alphanumeric.word
      <*> entries.optional spacesField false Loading.flag
      <*> entries.optional underscoresField false Loading.flag
  | .all => entries.asRecord (fields .all) fun entries =>
    (fun _ (parts : ValueRule × List ValueRule) => all parts.1 parts.2)
      <$> entries.tagged Tag.all.word
      <*> loadParts entries readings
  | .any => entries.asRecord (fields .any) fun entries =>
    (fun _ (parts : ValueRule × List ValueRule) => any parts.1 parts.2)
      <$> entries.tagged Tag.any.word
      <*> loadParts entries readings

/-- The reader that a tag selects. -/
def variant? (readings : List (String × Checked (List ValueRule))) (word : String) :
    Option (Entries → Checked ValueRule) :=
  (Vocabulary.ofWord? word).map fun tag => ofRecord tag readings

mutual

/-- Reads a rule. -/
def load : Document → Checked ValueRule
  | .record entries => Document.byTag (.record entries) (variant? (loadEntries entries))
  | _ => .fault .notTagged

/-- Reads each entry of a record as a list of rules. -/
def loadEntries : List (String × Document) → List (String × Checked (List ValueRule))
  | [] => []
  | (key, value) :: entries => (key, loadList value) :: loadEntries entries

/-- Reads a list of rules. -/
def loadList : Document → Checked (List ValueRule)
  | .list items => loadItems 0 items
  | _ => .fault .notList

/-- Reads the items of a list, the first of which has the given position. -/
def loadItems (position : Nat) : List Document → Checked (List ValueRule)
  | [] => .ok []
  | d :: ds => List.cons <$> (load d).under (.position position) <*> loadItems (position + 1) ds

end

/-- Reads a rule whose kind is known beforehand. -/
def loadAs (tag : Tag) : Document → Checked ValueRule
  | .record entries => ofRecord tag (loadEntries entries) entries
  | _ => .fault .notRecord

/-! ## Writing -/

/-- The field that names the kind of rule. -/
def writtenTag (tag : Tag) : Written :=
  { field := tagKey, value := .ofWord tag, isDefault := true }

/-- A bound as it is written. -/
def writtenBound (field : FieldName) (bound : Option Float) : Written :=
  { field, value := (bound.map Document.float).getD .null, isDefault := bound.isNone }

/-- A flag that is off by default. -/
def writtenFlag (field : FieldName) (b : Bool) : Written :=
  { field, value := .flag b, isDefault := !b }

mutual

/-- Writes a rule as a record. -/
def save (style : Style) : ValueRule → Document
  | range bounds => style.record
      [writtenBound minField bounds.min, writtenBound maxField bounds.max, writtenTag .range]
  | length bounds => style.record
      [writtenBound minField bounds.min, writtenBound maxField bounds.max, writtenTag .length]
  | pattern regex _ message => style.record
      [writtenTag .pattern, { field := patternField, value := .text regex },
       { field := messageField, value := .ofText? message, isDefault := message.isNone }]
  | oneOf first others => style.record
      [writtenTag .enum, { field := valuesField, value := .ofTexts (first :: others) }]
  | email => style.record [writtenTag .email]
  | url => style.record [writtenTag .url]
  | letters spaces => style.record [writtenTag .alpha, writtenFlag spacesField spaces]
  | alphanumeric spaces underscores => style.record
      [writtenTag .alphanumeric, writtenFlag spacesField spaces,
       writtenFlag underscoresField underscores]
  | all first others => style.record
      [writtenTag .all,
       { field := partsField, value := .list (first.save style :: saveParts style others) }]
  | any first others => style.record
      [writtenTag .any,
       { field := partsField, value := .list (first.save style :: saveParts style others) }]

/-- Writes the parts of a composed rule. -/
def saveParts (style : Style) : List ValueRule → List Document
  | [] => []
  | part :: parts => part.save style :: saveParts style parts

end

instance : Definition ValueRule := { load, save, reload := fun rule => loadAs rule.tag }

end PgSchema.ValueRule
