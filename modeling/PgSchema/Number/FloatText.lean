/-
# The text of a floating-point number

A number is written with its shortest digits.  `FloatStyle` records where positional notation
ends and how an exponent looks.
-/
import PgSchema.Number.Shortest

namespace PgSchema.Number

/-- How numbers are written: positional notation for decimal exponents from `leastPositional` up
to but excluding `firstScientific`, and at least `exponentWidth` digits in an exponent. -/
structure FloatStyle where
  leastPositional : Int
  firstScientific : Int
  exponentWidth : Nat

/-- Numbers from 0.0001 up to but excluding 10^16 are positional; an exponent has a sign and at
least two digits. -/
def FloatStyle.standard : FloatStyle := ⟨-4, 16, 2⟩

/-- A number of zeros. -/
def zeroDigits (n : Nat) : List Char := List.replicate n '0'

/-- Positional notation, with a digit on each side of the point. -/
def positional (digits : List Char) (exponent : Int) : List Char :=
  let point := (digits.length : Int) + exponent
  if point ≤ 0 then '0' :: '.' :: (zeroDigits (-point).toNat ++ digits)
  else if 0 ≤ exponent then digits ++ zeroDigits exponent.toNat ++ ['.', '0']
  else digits.take point.toNat ++ '.' :: digits.drop point.toNat

/-- Scientific notation: one digit before the point, no point without a digit after it. -/
def scientific (style : FloatStyle) (digits : List Char) (exponent : Int) : List Char :=
  let power := (digits.length : Int) + exponent - 1
  let powerDigits := (toString power.natAbs).toList
  let mantissa :=
    match digits with
    | first :: second :: rest => first :: '.' :: second :: rest
    | digits => digits
  mantissa ++ 'e' :: (if power < 0 then '-' else '+') ::
    (zeroDigits (style.exponentWidth - powerDigits.length) ++ powerDigits)

/-- A positive decimal in the given style. -/
def Decimal.write (style : FloatStyle) (d : Decimal) : List Char :=
  let digits := (toString d.digits).toList
  let power := (digits.length : Int) + d.exponent - 1
  if style.leastPositional ≤ power && power < style.firstScientific then
    positional digits d.exponent
  else scientific style digits d.exponent

/-- The text of a number. -/
def floatText (x : Float) : String :=
  match Exact.ofFloat x with
  | .undefined => "nan"
  | .posInfinity => "inf"
  | .negInfinity => "-inf"
  | .finite units =>
    let sign := if isNegative x then ['-'] else []
    if units = 0 then String.ofList (sign ++ ['0', '.', '0'])
    else String.ofList (sign ++ (shortest x).write .standard)

/-- The text of a number, whole numbers as exact integers. -/
def boundText (x : Float) : String :=
  match wholeValue? x with
  | some n => toString n
  | none => floatText x

end PgSchema.Number
