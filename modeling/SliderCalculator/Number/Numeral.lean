import SliderCalculator.Text.Ascii

/-!
# Decimal numerals

A numeral is a sign, digits with at most one point among them, and a power of ten. It is
read off a text that holds nothing else, and it denotes the float nearest to its value,
an infinity where that is too large.

Besides numerals a number is written as one of the words for infinity and for the value
that is not a number, in letters of either case.
-/

namespace SliderCalculator

/-- A decimal numeral: a sign, the digits before and after the point, and the exponent of
the power of ten that the number so written is multiplied by. -/
structure Numeral where
  negative : Bool
  whole : Text
  fraction : Text
  exponent : Int
deriving DecidableEq, Repr

namespace Numeral

/-- The number that a list of digits writes in base ten. -/
def ofDigits (digits : Text) : Nat :=
  digits.foldl (fun n c => 10 * n + (c.toNat - '0'.toNat)) 0

/-- Whether a text starts with a minus sign, and the text after the sign if there is one. -/
def readSign : Text → Bool × Text
  | '-' :: t => (true, t)
  | '+' :: t => (false, t)
  | t => (false, t)

/-- Letters and digits are no signs. -/
theorem readSign_of_isAlphanum {c : Char} (hc : c.isAlphanum = true) (t : Text) :
  readSign (c :: t) = (false, c :: t)
  := by
  unfold readSign
  split
  · next h =>
    cases h
    contradiction
  · next h =>
    cases h
    contradiction
  · rfl

/-- The exponent that a text writes: a mark, a sign that may be left out, and digits.
Empty text writes the exponent zero. -/
def readExponent? : Text → Option Int
  | [] => some 0
  | mark :: t =>
    let (negative, digits) := readSign t
    if (mark = 'e' ∨ mark = 'E') ∧ digits ≠ [] ∧ digits.all Char.isDigit = true then
      some (if negative then -(ofDigits digits : Int) else ofDigits digits)
    else
      none

/-- The digits after the point that a text starts with, and the text after them. -/
def readFraction : Text → Text × Text
  | '.' :: t => t.span Char.isDigit
  | t => ([], t)

/-- The numeral that a text writes. There must be a digit before or after the point. -/
def read? (t : Text) : Option Numeral :=
  let (negative, t) := readSign t
  let (whole, t) := t.span Char.isDigit
  let (fraction, t) := readFraction t
  if whole = [] ∧ fraction = [] then
    none
  else
    (readExponent? t).map fun exponent => { negative, whole, fraction, exponent }

/-- The digits of a numeral as one number. -/
def coefficient (n : Numeral) : Nat :=
  ofDigits (n.whole ++ n.fraction)

/-- The power of ten that the coefficient of a numeral is multiplied by. -/
def scale (n : Numeral) : Int :=
  n.exponent - n.fraction.length

/-- The float nearest to the value of a numeral. -/
def toFloat (n : Numeral) : Float :=
  let magnitude := Float.ofModel (Float.Model.ofScientific n.coefficient n.scale)
  if n.negative then -magnitude else magnitude

end Numeral

namespace Number

/-- The float that is not a number. -/
def nan : Float :=
  Float.ofModel (Float.Model.pack .notANumber)

/-- The positive infinity. -/
def infinity : Float :=
  Float.ofModel (Float.Model.pack (.infinity .positive))

/-- The float that a word in small letters denotes. -/
def ofWord? (word : Text) : Option Float :=
  if word = "inf".toList ∨ word = "infinity".toList then
    some infinity
  else if word = "nan".toList then
    some nan
  else
    none

/-- The float that a signed word denotes, in letters of either case. -/
def readWord? (t : Text) : Option Float :=
  let (negative, word) := Numeral.readSign t
  (ofWord? (word.map Char.toLower)).map fun x => if negative then -x else x

/-- The float that a text denotes, as a numeral or as a word. -/
def read? (t : Text) : Option Float :=
  match Numeral.read? t with
  | some n => some n.toFloat
  | none => readWord? t

end Number

end SliderCalculator
