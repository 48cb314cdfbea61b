/-
# Faults of a document

What can be wrong with a definition: a cause, and the path to the place where it was found.
Every fault of a document is reported, except that type text without the number it needs stops
the reading at once.
-/
import PgSchema.Number.FloatText
import PgSchema.Number.Numeral
import PgSchema.SqlType.Kind
import PgSchema.Text.Quoted

namespace PgSchema

/-- A step on the way into a document. -/
inductive Place
  | key (name : String)
  | position (index : Nat)
deriving DecidableEq, Repr

/-- A rule of a definition that well-formed parts can break together. -/
inductive BrokenRule
  | lengthNotAllowed (kind : Kind)
  | lengthMissing
  | precisionZero (kind : Kind)
  | scaleWithoutPrecision (kind : Kind)
  | scaleAbovePrecision (kind : Kind) (scale precision : Nat)
  | scaleNotAllowed (kind : Kind)
  | tooManyFractionalDigits (kind : Kind) (precision : Nat)
  | precisionNotAllowed (kind : Kind)
  | elementMismatch
  | typeNameMissing (kind : Kind)
  | typeNameNotAllowed (kind : Kind)
  | badInteger (fault : Number.IntegerFault)
  | boundMissing
  | boundsReversed (min max : Float)
  | duplicateColumn (name : String)
  | unknownAction (written : String)
  | unknownMethod (written : String)

/-- The most fractional-second digits that a time type keeps. -/
def maxFractionalDigits : Nat := 6

/-- The wording of a broken rule. -/
def BrokenRule.message : BrokenRule → String
  | .lengthNotAllowed kind => "length is only valid for varchar and char, not " ++ kind.word
  | .lengthMissing => "char requires a length"
  | .precisionZero kind => kind.word ++ " precision must be at least 1"
  | .scaleWithoutPrecision kind => kind.word ++ " scale requires a precision"
  | .scaleAbovePrecision kind scale precision =>
    kind.word ++ " scale " ++ toString scale ++ " exceeds precision " ++ toString precision
  | .scaleNotAllowed kind => "scale is only valid for decimal and numeric, not " ++ kind.word
  | .tooManyFractionalDigits kind precision =>
    kind.word ++ " precision " ++ toString precision ++ " exceeds " ++
      toString maxFractionalDigits ++ " fractional-second digits"
  | .precisionNotAllowed kind =>
    "precision and scale are only valid for decimal, numeric and time types, not " ++ kind.word
  | .elementMismatch => "element is required for array types and only for them"
  | .typeNameMissing kind => kind.word ++ " type requires a name"
  | .typeNameNotAllowed kind =>
    "name is only valid for enum and custom types, not " ++ kind.word
  | .badInteger (.malformed text) =>
    "invalid literal for int() with base 10: " ++ Text.quoted text
  | .badInteger (.tooLong digits) =>
    "Exceeds the limit (" ++ toString Number.maxDigits ++
      " digits) for integer string conversion: value has " ++ toString digits ++
      " digits; use sys.set_int_max_str_digits() to increase the limit"
  | .boundMissing => "At least one of min or max must be specified"
  | .boundsReversed min max =>
    "min " ++ Number.floatText min ++ " is greater than max " ++ Number.floatText max
  | .duplicateColumn name => "Duplicate column name: " ++ name
  | .unknownAction written =>
    "Invalid foreign key action '" ++ written ++
      "'. Valid values are: RESTRICT, CASCADE, SET NULL, SET DEFAULT, NO ACTION"
  | .unknownMethod written => Text.quoted written ++ " is not a valid IndexMethod"

/-- Why a part of a document is refused. -/
inductive Cause
  | missing
  | unknownKey
  | notRecord
  | notText
  | emptyText
  | notList
  | emptyList
  | notMapping
  | notPositive
  | negative
  | notMember
  | wrongTag
  | unreadableFlag
  | notFlag
  | unreadableInteger
  | integerTooLarge
  | fractionalInteger
  | infiniteInteger
  | notInteger
  | unreadableFloat
  | notFloat
  | notTagged
  | tagMissing
  | tagUnknown
  | broken (rule : BrokenRule)

/-- What a reader is told about a cause. -/
def Cause.message : Cause → String
  | .missing => "a value is required"
  | .unknownKey => "the key is not known here"
  | .notRecord => "a record is expected"
  | .notText => "text is expected"
  | .emptyText => "the text must not be empty"
  | .notList => "a list is expected"
  | .emptyList => "the list must not be empty"
  | .notMapping => "a mapping is expected"
  | .notPositive => "the number must be above zero"
  | .negative => "the number must not be negative"
  | .notMember => "the word is not one of those allowed"
  | .wrongTag => "the type does not fit"
  | .unreadableFlag => "neither a yes nor a no"
  | .notFlag => "a yes or a no is expected"
  | .unreadableInteger => "the text is no integer"
  | .integerTooLarge => "the integer is too large"
  | .fractionalInteger => "the number is not whole"
  | .infiniteInteger => "the number is not finite"
  | .notInteger => "an integer is expected"
  | .unreadableFloat => "the text is no number"
  | .notFloat => "a number is expected"
  | .notTagged => "a record with a type is expected"
  | .tagMissing => "the type is missing"
  | .tagUnknown => "the type is not known"
  | .broken rule => rule.message

/-- A fault: where and why. -/
structure Fault where
  path : List Place
  cause : Cause

/-- Why a document could not be read. -/
inductive LoadError
  /-- The faults found, in the order of the definition. -/
  | faults (found : List Fault)
  /-- Type text has parentheses with commas but without the number that its kind needs. -/
  | missingNumber

namespace LoadError

/-- The error of two parts read side by side: all faults of both, unless the reading stopped. -/
def merge : LoadError → LoadError → LoadError
  | faults a, faults b => faults (a ++ b)
  | _, _ => missingNumber

/-- The error seen from outside: every path begins with one more step. -/
def under (place : Place) : LoadError → LoadError
  | faults found => faults (found.map fun f => { f with path := place :: f.path })
  | missingNumber => missingNumber

end LoadError
end PgSchema
