import SliderCalculator.Number.Numeral

/-!
# Rounding and powers

Rounding to a whole number goes to the nearest one, and away from zero from halfway
between two. The power of two floats approximates the real power; a base or an exponent
that is not a number makes the power none either, unless it does not matter.
-/

namespace SliderCalculator.Number

/-- The whole number nearest to `m / 2 ^ k`, the upper one from halfway between two. -/
def nearestWhole (m k : Nat) : Nat :=
  (2 * m + Nat.pow 2 k) / Nat.pow 2 (k + 1)

/-- The whole number nearest to a float, away from zero from halfway between two. A float
without a fraction, infinite or not a number is kept. -/
def roundHalfAway (x : Float) : Float :=
  match x.toModel.unpack with
  | .finite sign m q _ =>
    if 0 ≤ q then
      x
    else
      Float.ofModel
        (.pack (.round .binary64 sign (nearestWhole m (-q).toNat) 0))
  | _ => x

/-- The power of a float. Anything to the power zero is one, and so is one to any power,
even where the other is not a number. -/
def power (x y : Float) : Float :=
  if y == 0.0 || x == 1.0 then
    1.0
  else if x.isNaN || y.isNaN then
    nan
  else
    Float.pow x y

end SliderCalculator.Number
