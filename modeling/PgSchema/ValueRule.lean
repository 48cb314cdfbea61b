/-
# Rules on the values of a column

A rule is rendered as a boolean SQL expression over the column (`ValueRule.sql`), and can also
be applied to a value at hand (`ValueRule.check`).
-/
import PgSchema.Document
import PgSchema.Loading.Fault
import PgSchema.Pattern.Reader
import PgSchema.Sql.Quote

namespace PgSchema

open Number

/-- Inclusive bounds, at least one of them given and in order. -/
structure Bounds where
  min : Option Float
  max : Option Float
  bounded : (min.isSome || max.isSome) = true
  ordered : ∀ a ∈ min, ∀ b ∈ max, (Exact.ofFloat b).lt (Exact.ofFloat a) = false
deriving DecidableEq

namespace Bounds

/-- Bounds, or the rule that they break. -/
def make (min max : Option Float) : Except BrokenRule Bounds :=
  match min, max with
  | none, none => .error .boundMissing
  | some a, none => .ok ⟨some a, none, rfl, by simp⟩
  | none, some b => .ok ⟨none, some b, rfl, by simp⟩
  | some a, some b =>
    if h : (Exact.ofFloat b).lt (Exact.ofFloat a) = false then
      .ok ⟨some a, some b, rfl, by simpa using h⟩
    else .error (.boundsReversed a b)

/-- The comparisons of an SQL expression with the bounds. -/
def comparisons (bounds : Bounds) (measured : String) : List String :=
  (bounds.min.map fun a => measured ++ " >= " ++ boundText a).toList ++
    (bounds.max.map fun b => measured ++ " <= " ++ boundText b).toList

/-- Holds when a number lies within the bounds. -/
def admits (bounds : Bounds) (x : Exact) : Bool :=
  (bounds.min.all fun a => !x.lt (Exact.ofFloat a)) &&
    bounds.max.all fun b => x.le (Exact.ofFloat b)

/-- What the bounds ask for, between a subject and a unit. -/
def describe (bounds : Bounds) (subject unit : String) : String :=
  match bounds.min, bounds.max with
  | some a, some b =>
    subject ++ " must be between " ++ boundText a ++ " and " ++ boundText b ++ unit
  | some a, none => subject ++ " must be at least " ++ boundText a ++ unit
  | none, some b => subject ++ " must be at most " ++ boundText b ++ unit
  | none, none => subject

end Bounds

/-- A rule on the values of a column. -/
inductive ValueRule
  /-- A number within bounds. -/
  | range (bounds : Bounds)
  /-- A text whose length is within bounds. -/
  | length (bounds : Bounds)
  /-- A text in which a regular expression matches. -/
  | pattern (regex : String) (nonempty : regex ≠ "") (message : Option String)
  /-- One of the listed texts. -/
  | oneOf (first : String) (others : List String)
  | email
  | url
  /-- Letters only, or letters and blanks. -/
  | letters (spaces : Bool)
  /-- Letters and digits, and blanks and underscores if allowed. -/
  | alphanumeric (spaces underscores : Bool)
  /-- Every part holds. -/
  | all (first : ValueRule) (others : List ValueRule)
  /-- Some part holds. -/
  | any (first : ValueRule) (others : List ValueRule)
deriving BEq

namespace ValueRule

/-! ## Regular expressions of the named rules -/

/-- Electronic mail addresses. -/
def emailPattern : String := "^[a-zA-Z0-9._%+-]+@[a-zA-Z0-9.-]+\\.[a-zA-Z]\x7b2,\x7d$"

/-- Web addresses. -/
def urlPattern : String := "^https?:\\/\\/[^\\s]+$"

/-- Letters, and blanks if allowed. -/
def lettersPattern (spaces : Bool) : String :=
  if spaces then "^[a-zA-Z\\s]+$" else "^[a-zA-Z]+$"

/-- Letters and digits, and blanks and underscores if allowed. -/
def alphanumericPattern (spaces underscores : Bool) : String :=
  "^[a-zA-Z0-9" ++ (if spaces then "\\s" else "") ++ (if underscores then "_" else "") ++ "]+$"

/-- The regular expression of a rule that consists of one. -/
def regex? : ValueRule → Option String
  | pattern regex _ _ => some regex
  | email => some emailPattern
  | url => some urlPattern
  | letters spaces => some (lettersPattern spaces)
  | alphanumeric spaces underscores => some (alphanumericPattern spaces underscores)
  | _ => none

/-! ## SQL -/

/-- A regular expression match. -/
def matchSql (column regex : String) : String := column ++ " ~ " ++ Sql.literal regex

/-- Membership in a list of texts. -/
def memberSql (column : String) (values : List String) : String :=
  column ++ " IN (" ++ ", ".intercalate (values.map Sql.literal) ++ ")"

/-- A part of a composed rule, in parentheses. -/
def enclosed (sql : String) : String := "(" ++ sql ++ ")"

mutual

/-- The rule as a boolean SQL expression over a column. -/
def sql (column : String) : ValueRule → String
  | range bounds => " AND ".intercalate (bounds.comparisons column)
  | length bounds => " AND ".intercalate (bounds.comparisons ("length(" ++ column ++ ")"))
  | pattern regex _ _ => matchSql column regex
  | oneOf first others => memberSql column (first :: others)
  | email => matchSql column emailPattern
  | url => matchSql column urlPattern
  | letters spaces => matchSql column (lettersPattern spaces)
  | alphanumeric spaces underscores => matchSql column (alphanumericPattern spaces underscores)
  | all first others =>
    " AND ".intercalate (enclosed (first.sql column) :: enclosedParts column others)
  | any first others =>
    " OR ".intercalate (enclosed (first.sql column) :: enclosedParts column others)

/-- The parts of a composed rule, each in parentheses. -/
def enclosedParts (column : String) : List ValueRule → List String
  | [] => []
  | part :: parts => enclosed (part.sql column) :: enclosedParts column parts

end

/-! ## Descriptions -/

/-- The description of the characters of an alphanumeric rule. -/
def alphanumericDescription (spaces underscores : Bool) : String :=
  let extras := (if spaces then ["spaces"] else []) ++ if underscores then ["underscores"] else []
  " and ".intercalate ("Value must contain only letters and numbers" :: extras)

mutual

/-- What the rule asks for. -/
def description : ValueRule → String
  | range bounds => bounds.describe "Value" ""
  | length bounds => bounds.describe "Length" " characters"
  | pattern regex _ message =>
    match message.filter (· != "") with
    | some message => message
    | none => "Value must match pattern: " ++ regex
  | oneOf first others => "Value must be one of: " ++ ", ".intercalate (first :: others)
  | email => "Value must be a valid email address"
  | url => "Value must be a valid URL"
  | letters true => "Value must contain only letters and spaces"
  | letters false => "Value must contain only letters"
  | alphanumeric spaces underscores => alphanumericDescription spaces underscores
  | all first others => " AND ".intercalate (first.description :: descriptions others)
  | any first others => " OR ".intercalate (first.description :: descriptions others)

/-- What each rule asks for. -/
def descriptions : List ValueRule → List String
  | [] => []
  | part :: parts => part.description :: descriptions parts

end

/-! ## Checking values -/

/-- Why a rule says nothing about a value. -/
inductive CheckError
  /-- The value has no order, or no length, that the rule could look at. -/
  | notComparable
  /-- The regular expression of the rule is malformed. -/
  | badPattern
deriving DecidableEq, Repr

/-- The number that a value is; a flag counts as one or zero. -/
def numberOf? : Document → Option Exact
  | .integer n => some (Exact.ofInt n)
  | .float x => some (Exact.ofFloat x)
  | .flag b => some (Exact.ofInt (if b then 1 else 0))
  | _ => none

/-- The length of a value: of a text in characters, of a list or record in members. -/
def lengthOf? : Document → Option Nat
  | .text s => some s.length
  | .list items => some items.length
  | .record entries => some entries.length
  | _ => none

/-- Applies bounds to what is measured of a value. -/
def checkBounds (bounds : Bounds) : Option Exact → Except CheckError Bool
  | some x => .ok (bounds.admits x)
  | none => .error .notComparable

/-- Holds when the regular expression matches in the text of a value. -/
def checkMatch (regex : String) (value : Document) : Except CheckError Bool :=
  match Pattern.read? regex with
  | some p => .ok (p.occursIn value.printed)
  | none => .error .badPattern

mutual

/-- Applies the rule to a value.  Composed rules stop at the first part that decides. -/
def check (value : Document) : ValueRule → Except CheckError Bool
  | range bounds => checkBounds bounds (numberOf? value)
  | length bounds => checkBounds bounds ((lengthOf? value).map fun n => Exact.ofInt n)
  | pattern regex _ _ => checkMatch regex value
  | oneOf first others => .ok ((first :: others).contains value.printed)
  | email => checkMatch emailPattern value
  | url => checkMatch urlPattern value
  | letters spaces => checkMatch (lettersPattern spaces) value
  | alphanumeric spaces underscores =>
    checkMatch (alphanumericPattern spaces underscores) value
  | all first others =>
    match first.check value with
    | .ok true => checkEvery value others
    | result => result
  | any first others =>
    match first.check value with
    | .ok false => checkSome value others
    | result => result

/-- Applies rules in turn until one fails. -/
def checkEvery (value : Document) : List ValueRule → Except CheckError Bool
  | [] => .ok true
  | part :: parts =>
    match part.check value with
    | .ok true => checkEvery value parts
    | result => result

/-- Applies rules in turn until one holds. -/
def checkSome (value : Document) : List ValueRule → Except CheckError Bool
  | [] => .ok false
  | part :: parts =>
    match part.check value with
    | .ok false => checkSome value parts
    | result => result

end

end ValueRule
end PgSchema
