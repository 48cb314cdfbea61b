/-
# Configuration

What a compilation is asked for: the migration mode, and the switches that shape the script and
the checks made on the way.
-/
import PgSchema.Loading.Definition

namespace PgSchema

/-! ## Migration modes -/

/-- How the script of a table meets a table that may exist already. -/
inductive MigrationMode
  /-- Create the table; it must not exist. -/
  | createOnly
  /-- Create the table unless it exists. -/
  | createIfNotExists
  /-- Create the table unless it exists, then add what it lacks. -/
  | createOrAlter
  /-- Add what the table lacks. -/
  | alterOnly
  /-- Drop the table, then create it. -/
  | dropAndRecreate
deriving DecidableEq, Repr

namespace MigrationMode

/-- The word for a mode. -/
def word : MigrationMode → String
  | createOnly => "create-only"
  | createIfNotExists => "create-if-not-exists"
  | createOrAlter => "create-or-alter"
  | alterOnly => "alter-only"
  | dropAndRecreate => "drop-and-recreate"

/-- The modes. -/
def all : List MigrationMode :=
  [createOnly, createIfNotExists, createOrAlter, alterOnly, dropAndRecreate]

instance : Vocabulary MigrationMode := ⟨all, word⟩

instance : LawfulVocabulary MigrationMode := ⟨fun mode => by cases mode <;> rfl⟩

end MigrationMode

/-! ## Migrations -/

/-- The number of characters of an identifier that the database keeps. -/
def identifierLimit : Nat := 63

/-- How existing tables are treated. -/
structure Migration where
  mode : MigrationMode := .createOnly
  /-- Add the columns that a table lacks. -/
  addsColumns : Bool := true
  /-- Dropping columns needs the live table, so it is announced and not done. -/
  dropsColumns : Bool := false
  createsIndexes : Bool := true
  /-- Add the constraints that a table lacks. -/
  addsConstraints : Bool := true
  /-- Look first, in one block, instead of leaving it to `IF NOT EXISTS`. -/
  guards : Bool := true
  /-- The length above which an identifier is warned about. -/
  maxIdentifierLength : Nat := identifierLimit
  maxIdentifierLength_pos : 0 < maxIdentifierLength := by decide
deriving DecidableEq

namespace Migration

/-- The migration unless a definition says otherwise. -/
instance : Inhabited Migration := ⟨{}⟩

def modeField : FieldName := { name := "mode" }
def addsColumnsField : FieldName := { name := "enable_column_adding" }
def dropsColumnsField : FieldName := { name := "enable_column_dropping" }
def createsIndexesField : FieldName := { name := "enable_index_creation" }
def addsConstraintsField : FieldName := { name := "enable_constraint_modification" }
def guardsField : FieldName := { name := "generate_do_blocks" }
def maxIdentifierLengthField : FieldName := { name := "max_identifier_length" }

/-- The fields of a migration. -/
def fields : List FieldName :=
  [modeField, addsColumnsField, dropsColumnsField, createsIndexesField, addsConstraintsField,
   guardsField, maxIdentifierLengthField]

/-- Reads a migration. -/
def load (d : Document) : Checked Migration :=
  d.asRecord fields fun entries =>
    (fun mode addsColumns dropsColumns createsIndexes addsConstraints guards
        (limit : { n : Nat // 0 < n }) =>
      ({ mode, addsColumns, dropsColumns, createsIndexes, addsConstraints, guards,
         maxIdentifierLength := limit.val, maxIdentifierLength_pos := limit.property } :
        Migration))
      <$> entries.optional modeField .createOnly Loading.member
      <*> entries.optional addsColumnsField true Loading.flag
      <*> entries.optional dropsColumnsField false Loading.flag
      <*> entries.optional createsIndexesField true Loading.flag
      <*> entries.optional addsConstraintsField true Loading.flag
      <*> entries.optional guardsField true Loading.flag
      <*> entries.optional maxIdentifierLengthField ⟨identifierLimit, by decide⟩ Loading.positive

/-- Writes a migration as a record. -/
def save (style : Style) (m : Migration) : Document :=
  let flag (field : FieldName) (default b : Bool) : Written :=
    { field, value := .flag b, isDefault := b == default }
  style.record
    [{ field := modeField, value := .ofWord m.mode, isDefault := m.mode == .createOnly },
     flag addsColumnsField true m.addsColumns, flag dropsColumnsField false m.dropsColumns,
     flag createsIndexesField true m.createsIndexes,
     flag addsConstraintsField true m.addsConstraints, flag guardsField true m.guards,
     { field := maxIdentifierLengthField, value := .integer m.maxIdentifierLength,
       isDefault := m.maxIdentifierLength == identifierLimit }]

instance : Definition Migration := { load, save }

end Migration

/-! ## Configurations -/

/-- The options of a compilation. -/
structure Config where
  /-- Lay the script out for reading. -/
  formats : Bool := true
  /-- Enable row security on tables that do not say. -/
  rowSecurityByDefault : Bool := false
  /-- Add columns for the times of creation and change. -/
  addsTimestamps : Bool := false
  /-- Write `NULL` and `NOT NULL` always. -/
  explicitNullability : Bool := false
  /-- Write comments on the parts of a table. -/
  comments : Bool := true
  /-- Audit each table first. -/
  validates : Bool := true
  migration : Migration := {}
deriving DecidableEq

namespace Config

/-- The configuration unless a definition says otherwise. -/
instance : Inhabited Config := ⟨{}⟩

def formatsField : FieldName := { name := "format_sql" }
def rowSecurityByDefaultField : FieldName := { name := "enable_rls_by_default" }
def addsTimestampsField : FieldName := { name := "add_timestamps" }
def explicitNullabilityField : FieldName := { name := "use_explicit_nullability" }
def commentsField : FieldName := { name := "generate_comments" }
def validatesField : FieldName := { name := "validate_schema" }
def migrationField : FieldName := { name := "migration" }

/-- The fields of a configuration. -/
def fields : List FieldName :=
  [formatsField, rowSecurityByDefaultField, addsTimestampsField, explicitNullabilityField,
   commentsField, validatesField, migrationField]

/-- Reads a configuration. -/
def load (d : Document) : Checked Config :=
  d.asRecord fields fun entries =>
    (fun formats rowSecurityByDefault addsTimestamps explicitNullability comments validates
        migration =>
      ({ formats, rowSecurityByDefault, addsTimestamps, explicitNullability, comments, validates,
         migration } : Config))
      <$> entries.optional formatsField true Loading.flag
      <*> entries.optional rowSecurityByDefaultField false Loading.flag
      <*> entries.optional addsTimestampsField false Loading.flag
      <*> entries.optional explicitNullabilityField false Loading.flag
      <*> entries.optional commentsField true Loading.flag
      <*> entries.optional validatesField true Loading.flag
      <*> entries.optional migrationField {} Migration.load

/-- Writes a configuration as a record. -/
def save (style : Style) (c : Config) : Document :=
  let flag (field : FieldName) (default b : Bool) : Written :=
    { field, value := .flag b, isDefault := b == default }
  style.record
    [flag formatsField true c.formats,
     flag rowSecurityByDefaultField false c.rowSecurityByDefault,
     flag addsTimestampsField false c.addsTimestamps,
     flag explicitNullabilityField false c.explicitNullability,
     flag commentsField true c.comments, flag validatesField true c.validates,
     { field := migrationField, value := c.migration.save style,
       isDefault := c.migration == {} }]

instance : Definition Config := { load, save }

end Config
end PgSchema
