/-
# Numerals

Digits with single underscores between them, and the integers written with them: white space
around, an optional sign, decimal digits of any script.  `readInteger` reads such a text and
`isNumeral` accepts the same shape in another base, with the base's own mark in front.
-/
import PgSchema.Text.Blank
import PgSchema.Text.Digit

namespace PgSchema.Number

open PgSchema.Text

/-- Why a text is no integer. -/
inductive IntegerFault
  /-- The text is not an integer numeral. -/
  | malformed (text : String)
  /-- The numeral has more digits than `maxDigits`. -/
  | tooLong (digits : Nat)
deriving DecidableEq, Repr

/-- The longest numeral that is read. -/
def maxDigits : Nat := 4300

/-- The values of the remaining digits.  An underscore stands between two digits only;
`afterDigit` tells whether the last character was a digit. -/
def digitValuesFrom (value? : Char → Option Nat) : Bool → List Char → Option (List Nat)
  | afterDigit, [] => if afterDigit then some [] else none
  | afterDigit, c :: cs =>
    if c == '_' then
      if afterDigit then digitValuesFrom value? false cs else none
    else
      (value? c).bind fun v => (digitValuesFrom value? true cs).map (v :: ·)

/-- The values of a nonempty group of digits, single underscores between them ignored. -/
def digitValues? (value? : Char → Option Nat) (cs : List Char) : Option (List Nat) :=
  digitValuesFrom value? false cs

/-- Splits a sign off: `true` for a minus. -/
def splitSign : List Char → Bool × List Char
  | '-' :: cs => (true, cs)
  | '+' :: cs => (false, cs)
  | cs => (false, cs)

/-- The integer with the given sign and digits. -/
def ofSignedDigits (negative : Bool) (values : List Nat) : Int :=
  let n : Int := ofDigitValues 10 values
  if negative then -n else n

/-- Reads an integer numeral. -/
def readInteger (s : String) : Except IntegerFault Int :=
  let (negative, digits) := splitSign (trimWhere isWhiteSpace s.toList)
  match digitValues? digitValue? digits with
  | none => .error (.malformed s)
  | some values =>
    if values.length > maxDigits then .error (.tooLong values.length)
    else .ok (ofSignedDigits negative values)

/-- The value of an ASCII digit. -/
def asciiDigit? (c : Char) : Option Nat :=
  if c.isDigit then some (c.toNat - '0'.toNat) else none

/-- The value of a digit below `base`: a decimal digit of any script or a letter from `a`. -/
def digitInBase? (base : Nat) (c : Char) : Option Nat :=
  let value? :=
    match digitValue? c with
    | some v => some v
    | none =>
      if 'a' ≤ c && c ≤ 'z' then some (c.toNat - 'a'.toNat + 10)
      else if 'A' ≤ c && c ≤ 'Z' then some (c.toNat - 'A'.toNat + 10)
      else none
  value?.filter (· < base)

/-- The digits after the base's mark, such as the `b` of `0b101`; one underscore may follow the
mark. -/
def dropBaseMark (marks : List Char) (cs : List Char) : List Char :=
  match cs with
  | zero :: mark :: rest =>
    if digitValue? zero == some 0 && marks.contains mark then
      match rest with
      | '_' :: rest => rest
      | rest => rest
    else cs
  | _ => cs

/-- Holds for an integer numeral of the given base, whose mark after a zero may lead it. -/
def isNumeral (base : Nat) (marks : List Char) (cs : List Char) : Bool :=
  let (_, digits) := splitSign (trimWhere isWhiteSpace cs)
  (digitValues? (digitInBase? base) (dropBaseMark marks digits)).isSome

end PgSchema.Number
