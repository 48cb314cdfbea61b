/-
# Default values of columns

A default is the SQL expression after `DEFAULT`, its kind and a description.  The common
defaults are values of this module; `DefaultValue.load` reads a default from a scalar or from
a record.
-/
import PgSchema.Loading.Definition
import PgSchema.Sql.Quote
import PgSchema.Text.Case
import PgSchema.Text.Search

namespace PgSchema

/-- The kinds of default values. -/
inductive DefaultKind
  | literal
  | function
  | expression
deriving DecidableEq, Repr

/-- The word for a kind of default. -/
def DefaultKind.word : DefaultKind → String
  | literal => "literal"
  | function => "function"
  | expression => "expression"

instance : Vocabulary DefaultKind := ⟨[.literal, .function, .expression], DefaultKind.word⟩

instance : LawfulVocabulary DefaultKind := ⟨fun kind => by cases kind <;> rfl⟩

/-- The default value of a column. -/
structure DefaultValue where
  kind : DefaultKind
  expression : String
  description : String
  nonempty : expression ≠ ""
deriving DecidableEq

namespace DefaultValue

/-! ## Common defaults -/

def currentTimestamp : DefaultValue :=
  ⟨.function, "CURRENT_TIMESTAMP", "Current timestamp with timezone", by decide⟩
def localTimestamp : DefaultValue :=
  ⟨.function, "LOCALTIMESTAMP", "Current timestamp without timezone", by decide⟩
def currentDate : DefaultValue :=
  ⟨.function, "CURRENT_DATE", "Current date (year-month-day only)", by decide⟩
def currentTime : DefaultValue :=
  ⟨.function, "CURRENT_TIME", "Current time with timezone", by decide⟩
def now : DefaultValue := ⟨.function, "NOW()", "Current timestamp (NOW function)", by decide⟩
def genRandomUuid : DefaultValue :=
  ⟨.function, "gen_random_uuid()", "Generate random UUID (requires pgcrypto extension)",
    by decide⟩
def uuidV1 : DefaultValue :=
  ⟨.function, "uuid_generate_v1()", "Generate UUID v1 (requires uuid-ossp extension)", by decide⟩
def uuidV4 : DefaultValue :=
  ⟨.function, "uuid_generate_v4()", "Generate UUID v4 (requires uuid-ossp extension)", by decide⟩
def emptyArray : DefaultValue := ⟨.literal, "ARRAY[]", "Empty array", by decide⟩
def emptyJsonObject : DefaultValue :=
  ⟨.literal, "'\x7b\x7d'::jsonb", "Empty JSON object", by decide⟩
def emptyJsonArray : DefaultValue := ⟨.literal, "'[]'::jsonb", "Empty JSON array", by decide⟩
def zero : DefaultValue := ⟨.literal, "0", "Zero", by decide⟩
def one : DefaultValue := ⟨.literal, "1", "One", by decide⟩
def emptyString : DefaultValue := ⟨.literal, "''", "Empty string", by decide⟩

/-- The functions that are known by name. -/
def knownFunctions : List DefaultValue :=
  [currentTimestamp, localTimestamp, currentDate, currentTime, now, genRandomUuid, uuidV1, uuidV4]

/-! ## Building defaults -/

/-- The explicit NULL. -/
def null : DefaultValue := ⟨.literal, "NULL", "Explicit NULL value", by decide⟩

/-- A truth value. -/
def boolean : Bool → DefaultValue
  | true => ⟨.literal, "true", "Boolean literal: true", by decide⟩
  | false => ⟨.literal, "false", "Boolean literal: false", by decide⟩

/-- A text literal. -/
def string (value : String) : DefaultValue :=
  ⟨.literal, Sql.literal value, "String literal: " ++ value, by simp [Sql.literal]⟩

/-- A JSON literal. -/
def jsonObject (json : String) : DefaultValue :=
  ⟨.literal, Sql.literal json ++ "::jsonb", "JSON object: " ++ json, by simp⟩

/-- The next value of a sequence. -/
def nextVal (sequence : String) : DefaultValue :=
  ⟨.function, "nextval('" ++ sequence ++ "')", "Next value from sequence: " ++ sequence,
    by simp⟩

def kindField : FieldName := { name := "kind" }
def expressionField : FieldName := { name := "sql_expression" }
def descriptionField : FieldName := { name := "description" }

/-- A default with a checked expression: empty text is a fault of the expression. -/
def make (kind : DefaultKind) (expression description : String) : Checked DefaultValue :=
  if h : expression = "" then
    (Checked.fault .emptyText).under (.key expressionField.name)
  else .ok ⟨kind, expression, description, h⟩

/-- A number, written as the document shows it. -/
def number (d : Document) : Checked DefaultValue :=
  make .literal d.printed ("Numeric literal: " ++ d.printed)

/-- A free expression; an empty description is replaced. -/
def ofExpression (expression : String) (description : String := "") : Checked DefaultValue :=
  make .expression expression
    (if description = "" then "Custom expression: " ++ expression else description)

/-- The default that a text stands for: a known function, NULL, a truth value, a quoted literal,
a sequence call, or else a free expression. -/
def ofText (s : String) : Checked DefaultValue :=
  let text := Text.trim s
  let capitals := Text.upper text
  match knownFunctions.find? fun d => Text.upper d.expression == capitals with
  | some known => .ok known
  | none =>
    if capitals == "NULL" then .ok null
    else if capitals == "TRUE" then .ok (boolean true)
    else if capitals == "FALSE" then .ok (boolean false)
    else if Text.startsWith text "'" then make .literal text ("Parsed default: " ++ text)
    else if Text.startsWith capitals "NEXTVAL(" then
      make .function text ("Parsed default: " ++ text)
    else ofExpression text

/-! ## Reading and writing -/

/-- The fields of a default. -/
def fields : List FieldName := [kindField, expressionField, descriptionField]

/-- Reads a default from a scalar or a record. -/
def load : Document → Checked DefaultValue
  | .flag b => .ok (boolean b)
  | .integer n => number (.integer n)
  | .float x => number (.float x)
  | .text s => ofText s
  | d => d.asRecord fields fun entries =>
    (fun kind (expression : Loading.NonemptyText) description =>
      (⟨kind, expression.value, description, expression.nonempty⟩ : DefaultValue))
      <$> entries.optional kindField .expression Loading.member
      <*> entries.required expressionField Loading.nonemptyText
      <*> entries.optional descriptionField "" Loading.text

/-- Reads a default where null stands for the explicit NULL. -/
def parse : Document → Checked DefaultValue
  | .null => .ok null
  | d => load d

/-- The fields of a default as they are written. -/
def written (d : DefaultValue) : List Written :=
  [{ field := kindField, value := .ofWord d.kind, isDefault := d.kind == .expression },
   { field := expressionField, value := .text d.expression },
   { field := descriptionField, value := .text d.description,
     isDefault := d.description == "" }]

/-- Writes a default as a record. -/
def save (style : Style) (d : DefaultValue) : Document := style.record d.written

instance : Definition DefaultValue := { load, save }

/-! ## What a default needs and fits -/

/-- The words that mark the types of numbers. -/
def numericMarks : List String :=
  ["INTEGER", "BIGINT", "SMALLINT", "SERIAL", "BIGSERIAL", "DECIMAL", "NUMERIC", "REAL",
   "DOUBLE PRECISION", "FLOAT"]

/-- The words that mark the types of text. -/
def textMarks : List String := ["TEXT", "VARCHAR", "CHAR", "CHARACTER"]

/-- Holds when the default fits a column of the type.  Only the common defaults are judged. -/
def fits (d : DefaultValue) (sqlType : String) : Bool :=
  let type := Text.upper sqlType
  let e := d.expression
  if ["CURRENT_TIMESTAMP", "LOCALTIMESTAMP", "NOW()"].contains e then
    Text.contains type "TIMESTAMP"
  else if e == "CURRENT_DATE" then type == "DATE"
  else if e == "CURRENT_TIME" then Text.contains type "TIME"
  else if ["gen_random_uuid()", "uuid_generate_v1()", "uuid_generate_v4()"].contains e then
    type == "UUID"
  else if ["'\x7b\x7d'::jsonb", "'[]'::jsonb"].contains e then Text.contains type "JSON"
  else if e == "ARRAY[]" then Text.contains type "[]"
  else if ["0", "1", "-1"].contains e then numericMarks.any (Text.contains type)
  else if e == "''" then textMarks.any (Text.contains type)
  else true

/-- The extensions that the default needs. -/
def requiredExtensions (d : DefaultValue) : List String :=
  if d.expression == "gen_random_uuid()" then ["pgcrypto"]
  else if ["uuid_generate_v1()", "uuid_generate_v4()"].contains d.expression then ["uuid-ossp"]
  else []

/-- Advice about the default. -/
def warnings (d : DefaultValue) : List String :=
  if d.expression == "uuid_generate_v1()" then
    ["UUID v1 may leak MAC address information", "Consider UUID v4 for privacy"]
  else if Text.contains (Text.upper d.expression) "RANDOM()" then
    ["Random values are not deterministic", "May cause issues with replication"]
  else []

end DefaultValue
end PgSchema
