import SliderCalculator.Text.Ascii

/-!
# Shortest decimals

A positive float `m * 2 ^ q` is the nearest float to all reals of an interval around it,
its *rounding interval*. The shortest decimal of the float lies on the coarsest grid
`10 ^ k` that has a point in the interval, and is the point of that grid nearest to the
float; of two such points the upper one is taken.

A grid with a point in the interval has one of the two neighbours of the float in it. The
float is itself a point of the grid `10 ^ q` when `q` is not positive, so the search from
coarse to fine ends there.
-/

namespace SliderCalculator

/-- A decimal `coefficient * 10 ^ exponent`. -/
structure Decimal where
  coefficient : Nat
  exponent : Int
deriving DecidableEq, Repr

/-- The rounding interval of a positive float, as multiples of `2 ^ exponent`. -/
structure RoundingInterval where
  lower : Nat
  centre : Nat
  upper : Nat
  exponent : Int
  /-- Whether the two ends belong to the interval. -/
  closed : Bool
deriving Repr

namespace RoundingInterval

/-- The least exponent of a float. -/
def leastExponent : Int := -1074

/-- The least mantissa of a float with an exponent above the least one, `2 ^ 52`. -/
def leastMantissa : Nat := 4503599627370496

/-- The rounding interval of the float `m * 2 ^ q`, in quarters of `2 ^ q`. It reaches
halfway to the floats next to it, and the one below is only half as far away when `m` is
the least mantissa. A real halfway between two floats rounds to the even mantissa. -/
def of (m : Nat) (q : Int) : RoundingInterval where
  lower := if m = leastMantissa ∧ leastExponent < q then 4 * m - 1 else 4 * m - 2
  centre := 4 * m
  upper := 4 * m + 2
  exponent := q - 2
  closed := m % 2 = 0

/-- The unit of an interval on the scale that makes both it and the power `10 ^ k` whole. -/
def unit (r : RoundingInterval) (k : Int) : Nat :=
  Nat.pow 2 r.exponent.toNat * Nat.pow 10 (-k).toNat

/-- The step of the grid `10 ^ k` on the same scale. -/
def step (r : RoundingInterval) (k : Int) : Nat :=
  Nat.pow 10 k.toNat * Nat.pow 2 (-r.exponent).toNat

/-- Whether `n * 10 ^ k` lies in the interval. -/
def contains (r : RoundingInterval) (n : Nat) (k : Int) : Bool :=
  let point := n * r.step k
  let lower := r.lower * r.unit k
  let upper := r.upper * r.unit k
  if r.closed then
    decide (lower ≤ point) && decide (point ≤ upper)
  else
    decide (lower < point) && decide (point < upper)

/-- The largest multiple of `10 ^ k` that is not above the float. -/
def floor (r : RoundingInterval) (k : Int) : Nat :=
  r.centre * r.unit k / r.step k

/-- Whether the float is nearer to `(n + 1) * 10 ^ k` than to `n * 10 ^ k`, or as near. -/
def isNearerAbove (r : RoundingInterval) (n : Nat) (k : Int) : Bool :=
  decide ((2 * n + 1) * r.step k ≤ 2 * (r.centre * r.unit k))

/-- The point of the grid `10 ^ k` in the interval that is nearest to the float, if the
grid has a point in the interval. -/
def nearest? (r : RoundingInterval) (k : Int) : Option Nat :=
  let n := r.floor k
  match r.contains n k, r.contains (n + 1) k with
  | true, true => some (if r.isNearerAbove n k then n + 1 else n)
  | true, false => some n
  | false, true => some (n + 1)
  | false, false => none

/-- The first hit among the grids `10 ^ (k + n)`, …, `10 ^ k`, from coarse to fine. The
finest grid is taken to have the float as a point. -/
def search (r : RoundingInterval) (k : Int) : Nat → Decimal
  | 0 => ⟨(r.nearest? k).getD (r.floor k), k⟩
  | n + 1 =>
    match r.nearest? (k + (n + 1 : Nat)) with
    | some c => ⟨c, k + (n + 1 : Nat)⟩
    | none => r.search k n

/-- An exponent of ten so large that its power is above the interval: `30103 / 100000` is
the logarithm of two to base ten, rounded up. -/
def coarsest (r : RoundingInterval) : Int :=
  ((r.upper.log2 : Int) + 1 + r.exponent) * 30103 / 100000 + 2

end RoundingInterval

/-- The shortest decimal that reads back as the float `m * 2 ^ q`. -/
def Decimal.shortest (m : Nat) (q : Int) : Decimal :=
  let r := RoundingInterval.of m q
  let finest := min q 0
  r.search finest (r.coarsest - finest).toNat

end SliderCalculator
