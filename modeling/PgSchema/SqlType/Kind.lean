/-
# Kinds of column types

The type families that are known by name.  The family of a kind says which parameters it takes.
-/
import PgSchema.Vocabulary

namespace PgSchema

/-- The kinds of column types. -/
inductive Kind
  | text | varchar | char
  | smallint | integer | bigint | serial | bigserial
  | decimal | numeric | real | doublePrecision
  | boolean
  | date | time | timestamp | timestamptz | interval
  | uuid | json | jsonb | bytea
  | inet | cidr | macaddr
  | point | line | box | circle
  | array | enum | custom
deriving DecidableEq, Repr

namespace Kind

/-- The word that spells a kind. -/
def word : Kind → String
  | text => "text"
  | varchar => "varchar"
  | char => "char"
  | smallint => "smallint"
  | integer => "integer"
  | bigint => "bigint"
  | serial => "serial"
  | bigserial => "bigserial"
  | decimal => "decimal"
  | numeric => "numeric"
  | real => "real"
  | doublePrecision => "double precision"
  | boolean => "boolean"
  | date => "date"
  | time => "time"
  | timestamp => "timestamp"
  | timestamptz => "timestamptz"
  | interval => "interval"
  | uuid => "uuid"
  | json => "json"
  | jsonb => "jsonb"
  | bytea => "bytea"
  | inet => "inet"
  | cidr => "cidr"
  | macaddr => "macaddr"
  | point => "point"
  | line => "line"
  | box => "box"
  | circle => "circle"
  | array => "array"
  | enum => "enum"
  | custom => "custom"

/-- Every kind, in listing order. -/
def all : List Kind :=
  [text, varchar, char, smallint, integer, bigint, serial, bigserial, decimal, numeric, real,
   doublePrecision, boolean, date, time, timestamp, timestamptz, interval, uuid, json, jsonb,
   bytea, inet, cidr, macaddr, point, line, box, circle, array, enum, custom]

instance : Vocabulary Kind := ⟨all, word⟩

theorem mem_all (k : Kind) : k ∈ all := by cases k <;> decide

instance : LawfulVocabulary Kind := ⟨fun k => by cases k <;> rfl⟩

/-- The parameters that a kind takes. -/
inductive Family
  /-- No parameters. -/
  | plain
  /-- An optional length. -/
  | varchar
  /-- A length. -/
  | char
  /-- An optional precision, and with it an optional scale. -/
  | exact
  /-- An optional count of fractional-second digits. -/
  | timed
  /-- An element type. -/
  | array
  /-- A type name. -/
  | named
deriving DecidableEq, Repr

/-- The family of a kind. -/
def family : Kind → Family
  | varchar => .varchar
  | char => .char
  | decimal | numeric => .exact
  | time | timestamp | timestamptz | interval => .timed
  | array => .array
  | enum | custom => .named
  | _ => .plain

/-- Holds for the kinds of numbers. -/
def isNumeric : Kind → Bool
  | smallint | integer | bigint | serial | bigserial | decimal | numeric | real
  | doublePrecision => true
  | _ => false

/-- Holds for the kinds of text. -/
def isTextual : Kind → Bool
  | text | varchar | char => true
  | _ => false

/-- The SQL spelling of a kind: its word in capitals, or the full name of the zoned timestamp. -/
def keyword : Kind → String
  | timestamptz => "TIMESTAMP WITH TIME ZONE"
  | k => k.word.map Char.toUpper

end Kind
end PgSchema
