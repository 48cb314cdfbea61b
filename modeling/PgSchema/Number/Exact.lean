/-
# Exact values of floating-point numbers

A finite double is a whole multiple of 2^-1074.  `Exact` keeps that multiple, so integers and
doubles are compared without rounding; not-a-number compares with nothing.
-/

namespace PgSchema.Number

/-- The value of a number on the extended line, in units of 2^-1074, or no value. -/
inductive Exact
  | negInfinity
  | finite (units : Int)
  | posInfinity
  | undefined
deriving DecidableEq, Repr

/-- The unit of exact values is 2^-1074. -/
def unitScale : Nat := Nat.pow 2 1074

/-- The fraction field of a double. -/
def fractionField (x : Float) : Nat := x.toBits.toNat % Nat.pow 2 52

/-- The exponent field of a double. -/
def exponentField (x : Float) : Nat := x.toBits.toNat / Nat.pow 2 52 % Nat.pow 2 11

/-- The sign bit of a double. -/
def isNegative (x : Float) : Bool := Nat.pow 2 63 ≤ x.toBits.toNat

/-- Holds for the doubles that are numbers. -/
def isFinite (x : Float) : Bool := exponentField x < 2047

/-- The integer significand `m` and the exponent `e` of a finite double `± m · 2 ^ (e - 1074)`. -/
def significand (x : Float) : Nat × Nat :=
  if exponentField x = 0 then (fractionField x, 0)
  else (Nat.pow 2 52 + fractionField x, exponentField x - 1)

/-- The magnitude of a finite double in units of 2^-1074. -/
def magnitudeUnits (x : Float) : Nat :=
  let (m, e) := significand x
  m * Nat.pow 2 e

/-- The exact value of a double. -/
def Exact.ofFloat (x : Float) : Exact :=
  if isFinite x then
    .finite (if isNegative x then -(magnitudeUnits x : Int) else magnitudeUnits x)
  else if fractionField x ≠ 0 then .undefined
  else if isNegative x then .negInfinity
  else .posInfinity

/-- The exact value of an integer. -/
def Exact.ofInt (n : Int) : Exact := .finite (n * unitScale)

/-- Strictly below. -/
def Exact.lt : Exact → Exact → Bool
  | .finite a, .finite b => a < b
  | .negInfinity, .finite _ => true
  | .negInfinity, .posInfinity => true
  | .finite _, .posInfinity => true
  | _, _ => false

/-- At most. -/
def Exact.le (a b : Exact) : Bool :=
  a.lt b || (a == b && a != .undefined)

/-- The integer that a double equals, if it is whole. -/
def wholeValue? (x : Float) : Option Int :=
  match Exact.ofFloat x with
  | .finite units => if units % unitScale = 0 then some (units / unitScale) else none
  | _ => none

end PgSchema.Number
