import SliderCalculator.Number.Shortest

/-!
# The text of a number

A finite float is written with the digits of its shortest decimal, in one of two ways:
positionally, with zeros up to the point where they are needed, or with the point after
the first digit and the exponent of ten behind a mark. A layout says which numbers are
written which way.
-/

namespace SliderCalculator

/-- The digits of a natural number in base ten. -/
def Decimal.digits (n : Nat) : Text :=
  Nat.toDigits 10 n

namespace Number

/-- How finite floats are written. -/
structure Layout where
  /-- Whether a float whose first digit stands for that power of ten is written
  positionally. -/
  isPositional : Int → Bool
  /-- What follows a whole number that is written positionally. -/
  wholeEnding : Text

/-- The text of `0.digits * 10 ^ point`: the position of the point is counted from before
the first digit. -/
def positional (ending : Text) (digits : Text) (point : Int) : Text :=
  if point ≤ 0 then
    '0' :: '.' :: (List.replicate (-point).toNat '0' ++ digits)
  else if digits.length ≤ point.toNat then
    digits ++ List.replicate (point.toNat - digits.length) '0' ++ ending
  else
    digits.take point.toNat ++ '.' :: digits.drop point.toNat

/-- The text of a whole number with its sign. -/
def signed (n : Int) : Text :=
  if n < 0 then '-' :: Decimal.digits n.natAbs else Decimal.digits n.natAbs

/-- The text with the point after the first digit and the exponent of ten behind a mark. -/
def scientific : (digits : Text) → (exponent : Int) → Text
  | d :: [], e => d :: 'e' :: signed e
  | d :: ds, e => d :: '.' :: (ds ++ 'e' :: signed e)
  | [], e => 'e' :: signed e

namespace Layout

/-- The text of a decimal that is not zero. -/
def decimal (l : Layout) (d : Decimal) : Text :=
  let digits := Decimal.digits d.coefficient
  let point := d.exponent + digits.length
  if l.isPositional (point - 1) then
    positional l.wholeEnding digits point
  else
    scientific digits (point - 1)

/-- The text of a float without its sign. -/
def magnitude (l : Layout) : Float.Model.UnpackedFloat → Text
  | .notANumber => "NaN".toList
  | .infinity _ => "inf".toList
  | .zero _ => '0' :: l.wholeEnding
  | .finite _ m q _ => l.decimal (Decimal.shortest m q)

/-- Whether a float is written with a minus sign. Zero has a sign, and the float that is
not a number has none. -/
def isNegative : Float.Model.UnpackedFloat → Bool
  | .infinity .negative | .zero .negative | .finite .negative .. => true
  | _ => false

/-- The text of a float. -/
def write (l : Layout) (x : Float) : Text :=
  let u := x.toModel.unpack
  if isNegative u then '-' :: l.magnitude u else l.magnitude u

end Layout

/-- Values are written positionally, and whole ones without a point. -/
def valueLayout : Layout where
  isPositional _ := true
  wholeEnding := []

/-- The text of a value. -/
def text (x : Float) : Text :=
  valueLayout.write x

end Number

end SliderCalculator
