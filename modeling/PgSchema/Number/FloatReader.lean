/-
# Reading floating-point numbers

`ofDecimal` rounds a decimal to the nearest double.  `readFloat?` reads a decimal numeral, with
an optional fraction and exponent, and the names of the values that are no numbers.
-/
import PgSchema.Number.Numeral

namespace PgSchema.Number

open PgSchema.Text

/-- The double nearest to `± digits · 10 ^ exponent`.  Beyond the range of doubles the power is
not worked out. -/
def ofDecimal (negative : Bool) (digits : Nat) (exponent : Int) : Float :=
  let power := exponent + (toString digits).length
  let magnitude : Float :=
    if digits = 0 || power < -400 then Float.ofScientific 0 false 0
    else if 400 < power then Float.ofBits 0x7FF0000000000000
    else Float.ofScientific digits (exponent < 0) exponent.natAbs
  if negative then -magnitude else magnitude

/-- A decimal numeral taken apart: the digits before and after the point and the exponent. -/
structure DecimalParts where
  whole : List Char
  fraction : List Char
  exponent : Int

/-- Reads an exponent, which needs a digit. -/
def readExponent? : List Char → Option Int
  | [] => some 0
  | e :: cs =>
    if e == 'e' || e == 'E' then
      let (negative, digits) := splitSign cs
      if !digits.isEmpty && digits.all Char.isDigit then
        some (ofSignedDigits negative (digits.filterMap asciiDigit?))
      else none
    else none

/-- Takes an unsigned decimal numeral apart; a digit stands on one side of the point at least. -/
def DecimalParts.ofChars? (cs : List Char) : Option DecimalParts :=
  let whole := cs.takeWhile Char.isDigit
  let rest := cs.dropWhile Char.isDigit
  let (fraction, rest) :=
    match rest with
    | '.' :: rest => (rest.takeWhile Char.isDigit, rest.dropWhile Char.isDigit)
    | rest => ([], rest)
  if whole.isEmpty && fraction.isEmpty then none
  else (readExponent? rest).map fun exponent => ⟨whole, fraction, exponent⟩

/-- The double nearest to a numeral. -/
def DecimalParts.toFloat (negative : Bool) (parts : DecimalParts) : Float :=
  let digits := ofDigitValues 10 ((parts.whole ++ parts.fraction).filterMap asciiDigit?)
  ofDecimal negative digits (parts.exponent - parts.fraction.length)

/-- The names of infinity and of the undefined value, in any case. -/
def namedFloat? (cs : List Char) : Option Float :=
  match String.ofList (cs.map Char.toLower) with
  | "inf" | "infinity" => some (Float.ofBits 0x7FF0000000000000)
  | "nan" => some (Float.ofBits 0x7FF8000000000000)
  | _ => none

/-- Reads a signed decimal numeral or a named value, without underscores. -/
def readPlainFloat? (cs : List Char) : Option Float :=
  let (negative, cs) := splitSign cs
  match namedFloat? cs with
  | some x => some (if negative then -x else x)
  | none => (DecimalParts.ofChars? cs).map (DecimalParts.toFloat negative)

/-- Removes single underscores that stand inside the text; fails if there is none, or if one
stands at an end or beside another. -/
def dropUnderscores? (cs : List Char) : Option (List Char) :=
  let doubled := (cs.zip (cs.drop 1)).any fun (a, b) => a == '_' && b == '_'
  if cs.head? == some '_' || cs.getLast? == some '_' || !cs.contains '_' || doubled then none
  else some (cs.filter (· != '_'))

/-- Reads a floating-point number with white space around it. -/
def readFloat? (s : String) : Option Float :=
  let cs := trimWhere isWhiteSpace s.toList
  match readPlainFloat? cs with
  | some x => some x
  | none => (dropUnderscores? cs).bind readPlainFloat?

end PgSchema.Number
