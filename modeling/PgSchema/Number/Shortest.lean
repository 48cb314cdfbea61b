/-
# Shortest decimals

The decimal with the fewest digits that reads back as a given double.  The reals that round to
the double form an interval; `shortest` tries the grids of multiples of `10 ^ k` from the
coarsest on and takes the first grid with a point in the interval, of two such points the one
nearer to the double.
-/
import PgSchema.Number.Exact

namespace PgSchema.Number

/-- A positive decimal `digits · 10 ^ exponent`. -/
structure Decimal where
  digits : Nat
  exponent : Int
deriving DecidableEq, Repr

/-- Four times a positive double, and four times the bounds of the interval of reals that round
to it, in units of 2^-1074.  The bounds belong to the interval iff the significand is even. -/
structure RoundingInterval where
  low : Nat
  value : Nat
  high : Nat
  closed : Bool

/-- The interval of reals that round to a positive finite double.  The gap below a power of two
is half the gap above. -/
def roundingInterval (x : Float) : RoundingInterval :=
  let (m, e) := significand x
  let unit := Nat.pow 2 e
  let below := if m = Nat.pow 2 52 ∧ 0 < e then 1 else 2
  { low := 4 * m * unit - below * unit
    value := 4 * m * unit
    high := 4 * m * unit + 2 * unit
    closed := m % 2 = 0 }

/-- Compares `digits · 10 ^ k` with `quadrupled / 4` units: both sides scaled to integers. -/
def gridPoint (k : Int) (digits : Nat) : Nat :=
  4 * unitScale * digits * Nat.pow 10 k.toNat

/-- A count of quarter units on the scale on which the points of the grid `10 ^ k` are whole. -/
def onGrid (k : Int) (quarters : Nat) : Nat :=
  quarters * Nat.pow 10 (-k).toNat

/-- Holds when the grid point lies in the interval. -/
def RoundingInterval.holds (interval : RoundingInterval) (k : Int) (digits : Nat) : Bool :=
  let point := gridPoint k digits
  if interval.closed then
    onGrid k interval.low ≤ point && point ≤ onGrid k interval.high
  else
    onGrid k interval.low < point && point < onGrid k interval.high

/-- The point of the grid `10 ^ k` that lies in the interval, nearest to its value; a tie goes to
the even count. -/
def RoundingInterval.nearest? (interval : RoundingInterval) (k : Int) : Option Decimal :=
  let value := onGrid k interval.value
  let below := value / (4 * unitScale * Nat.pow 10 k.toNat)
  let above := below + 1
  match interval.holds k below, interval.holds k above with
  | true, false => some ⟨below, k⟩
  | false, true => some ⟨above, k⟩
  | false, false => none
  | true, true =>
    let down := value - gridPoint k below
    let up := gridPoint k above - value
    if down < up || (down = up && below % 2 = 0) then some ⟨below, k⟩
    else some ⟨above, k⟩

/-- The exponents of the grids that can hold the shortest decimal of a double, coarsest first. -/
def gridExponents : List Int := (List.range 660).map fun i : Nat => 310 - (i : Int)

/-- The shortest decimal that reads back as the positive finite double. -/
def shortest (x : Float) : Decimal :=
  ((gridExponents.findSome? (roundingInterval x).nearest?)).getD ⟨0, 0⟩

end PgSchema.Number
