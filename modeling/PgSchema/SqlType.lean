/-
# Column types

A column type is one of the shapes below, each with the parameters that its kinds take, so every
type has an SQL spelling.  `SqlType.ofParts` builds a type from loose parameters and names the
first rule that they break; `SqlType.parts` takes a type apart again.
-/
import PgSchema.Loading.Fault
import PgSchema.Text.Blank

namespace PgSchema

/-- A positive character length. -/
abbrev Length := { n : Nat // 0 < n }

/-- The digits of a decimal type: a positive precision, and a scale within it. -/
@[ext] structure ExactSize where
  precision : Nat
  scale : Option Nat
  precision_pos : 0 < precision
  scale_le : ∀ s ∈ scale, s ≤ precision

instance : DecidableEq ExactSize := fun _ _ => decidable_of_iff _ ExactSize.ext_iff.symm

/-- The digits of a decimal type as written. -/
def ExactSize.params (size : ExactSize) : List Nat := size.precision :: size.scale.toList

/-- A column type. -/
inductive SqlType
  /-- A type without parameters. -/
  | plain (kind : Kind) (isPlain : kind.family = .plain)
  | varchar (length : Option Length)
  | char (length : Length)
  /-- A decimal type. -/
  | exact (kind : Kind) (isExact : kind.family = .exact) (size : Option ExactSize)
  /-- A time type with its count of fractional-second digits. -/
  | timed (kind : Kind) (isTimed : kind.family = .timed)
      (digits : Option (Fin (maxFractionalDigits + 1)))
  | array (element : SqlType)
  /-- An enum or a type unknown to this library. -/
  | named (kind : Kind) (isNamed : kind.family = .named) (name : String)
      (notBlank : Text.allBlank name = false)
deriving DecidableEq

namespace SqlType

/-- The kind of a type. -/
def kind : SqlType → Kind
  | plain kind _ => kind
  | varchar _ => .varchar
  | char _ => .char
  | exact kind _ _ => kind
  | timed kind _ _ => kind
  | array _ => .array
  | named kind _ _ _ => kind

/-! ## Parameters -/

/-- The parameters of a type before the rules of its kind are checked. -/
structure Parts where
  kind : Kind
  length : Option Length := none
  precision : Option Nat := none
  scale : Option Nat := none
  element : Option SqlType := none
  name : Option String := none

namespace Parts

/-- Refuses a length. -/
def noLength (p : Parts) : Except BrokenRule Unit :=
  if p.length.isSome then .error (.lengthNotAllowed p.kind) else .ok ()

/-- Refuses a precision and a scale. -/
def noPrecision (p : Parts) : Except BrokenRule Unit :=
  if p.precision.isSome || p.scale.isSome then .error (.precisionNotAllowed p.kind) else .ok ()

/-- Refuses an element type. -/
def noElement (p : Parts) : Except BrokenRule Unit :=
  if p.element.isSome then .error .elementMismatch else .ok ()

/-- Refuses a type name. -/
def noName (p : Parts) : Except BrokenRule Unit :=
  if p.name.isSome then .error (.typeNameNotAllowed p.kind) else .ok ()

/-- The digits of a decimal type. -/
def exactSize (p : Parts) : Except BrokenRule (Option ExactSize) :=
  match p.precision, p.scale with
  | none, none => .ok none
  | none, some _ => .error (.scaleWithoutPrecision p.kind)
  | some precision, scale =>
    if hp : 0 < precision then
      match scale with
      | none => .ok (some ⟨precision, none, hp, by simp⟩)
      | some s =>
        if hs : s ≤ precision then .ok (some ⟨precision, some s, hp, by simpa using hs⟩)
        else .error (.scaleAbovePrecision p.kind s precision)
    else .error (.precisionZero p.kind)

/-- The fractional-second digits of a time type. -/
def fractionalDigits (p : Parts) :
    Except BrokenRule (Option (Fin (maxFractionalDigits + 1))) :=
  match p.scale, p.precision with
  | some _, _ => .error (.scaleNotAllowed p.kind)
  | none, none => .ok none
  | none, some n =>
    if h : n < maxFractionalDigits + 1 then .ok (some ⟨n, h⟩)
    else .error (.tooManyFractionalDigits p.kind n)

end Parts

/-- The type with the given parameters, or the first rule that they break: length, precision and
scale, element, name. -/
def ofParts (p : Parts) : Except BrokenRule SqlType :=
  match h : p.kind.family with
  | .plain => do
    p.noLength; p.noPrecision; p.noElement; p.noName
    return .plain p.kind h
  | .varchar => do
    p.noPrecision; p.noElement; p.noName
    return .varchar p.length
  | .char =>
    match p.length with
    | none => .error .lengthMissing
    | some length => do
      p.noPrecision; p.noElement; p.noName
      return .char length
  | .exact => do
    p.noLength
    let size ← p.exactSize
    p.noElement; p.noName
    return .exact p.kind h size
  | .timed => do
    p.noLength
    let digits ← p.fractionalDigits
    p.noElement; p.noName
    return .timed p.kind h digits
  | .array => do
    p.noLength; p.noPrecision
    match p.element with
    | none => .error .elementMismatch
    | some element => do
      p.noName
      return .array element
  | .named => do
    p.noLength; p.noPrecision; p.noElement
    match p.name with
    | none => .error (.typeNameMissing p.kind)
    | some name =>
      if hn : Text.allBlank name = false then return .named p.kind h name hn
      else .error (.typeNameMissing p.kind)

/-- The parameters of a type. -/
def parts : SqlType → Parts
  | plain kind _ => { kind }
  | varchar length => { kind := .varchar, length }
  | char length => { kind := .char, length := some length }
  | exact kind _ size =>
    { kind, precision := size.map (·.precision), scale := size.bind (·.scale) }
  | timed kind _ digits => { kind, precision := digits.map (·.val) }
  | array element => { kind := .array, element := some element }
  | named kind _ name _ => { kind, name := some name }

/-! ## Spelling -/

/-- A parameter list. -/
def parenthesised (params : List Nat) : String :=
  "(" ++ ",".intercalate (params.map toString) ++ ")"

/-- The SQL spelling of a type.  The digits of a zoned timestamp follow its first word. -/
def sql : SqlType → String
  | plain kind _ => kind.keyword
  | varchar none => "VARCHAR"
  | varchar (some length) => "VARCHAR" ++ parenthesised [length.val]
  | char length => "CHAR" ++ parenthesised [length.val]
  | exact kind _ none => kind.keyword
  | exact kind _ (some size) => kind.keyword ++ parenthesised size.params
  | timed kind _ none => kind.keyword
  | timed .timestamptz _ (some digits) =>
    "TIMESTAMP" ++ parenthesised [digits.val] ++ " WITH TIME ZONE"
  | timed kind _ (some digits) => kind.keyword ++ parenthesised [digits.val]
  | array element => element.sql ++ "[]"
  | named _ _ name _ => name

/-- Holds for the types of numbers. -/
def isNumeric (t : SqlType) : Bool := t.kind.isNumeric

/-- Holds for the types of text. -/
def isTextual (t : SqlType) : Bool := t.kind.isTextual

/-- Holds for two types that are spelled alike, and so are one type to the database. -/
def sameSpelling (a b : SqlType) : Bool := a.sql == b.sql

end SqlType
end PgSchema
