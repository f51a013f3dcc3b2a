import SliderCalculator.Number.Arithmetic
import SliderCalculator.Variables

/-!
# Sliders

A slider holds the values that a variable can take: a range of finite numbers that are
not negative, and the distance of one value from the next, where zero stands for a range
without gaps. Snapping takes any float to a value of the slider.
-/

namespace SliderCalculator

/-- The range and the granularity of the values of a variable. -/
structure Slider where
  minimum : Float
  maximum : Float
  step : Float
  isFinite : (minimum.isFinite && maximum.isFinite && step.isFinite) = true
  minimum_nonneg : ¬ minimum < 0
  minimum_le_maximum : ¬ maximum < minimum
  step_nonneg : ¬ step < 0

namespace Slider

/-- The slider with a range and a granularity. Of several faults the first in the order of
`SliderFault` is reported. -/
def make (minimum maximum step : Float) : Except Error Slider :=
  if isFinite : (minimum.isFinite && maximum.isFinite && step.isFinite) = true then
    if minimum_nonneg : minimum < 0 then
      .error (.badSlider .negativeMinimum)
    else if minimum_le_maximum : maximum < minimum then
      .error (.badSlider .minimumAboveMaximum)
    else if step_nonneg : step < 0 then
      .error (.badSlider .negativeStep)
    else
      .ok { minimum, maximum, step, isFinite, minimum_nonneg, minimum_le_maximum, step_nonneg }
  else
    .error (.badSlider .notFinite)

/-- A slider is made of its numbers. -/
@[simp]
theorem make_numbers (s : Slider) :
  make s.minimum s.maximum s.step = .ok s
  := by
  rw [make, dif_pos s.isFinite, dif_neg s.minimum_nonneg, dif_neg s.minimum_le_maximum,
    dif_neg s.step_nonneg]

/-- The slider with the whole numbers from zero to a hundred. -/
def percent : Slider where
  minimum := 0
  maximum := 100
  step := 1
  isFinite := by decide +kernel
  minimum_nonneg := by decide +kernel
  minimum_le_maximum := by decide +kernel
  step_nonneg := by decide +kernel

instance : Inhabited Slider :=
  ⟨percent⟩

/-- Sliders are equal when their numbers are, so the sign of zero does not matter. -/
instance : BEq Slider where
  beq s t := s.minimum == t.minimum && s.maximum == t.maximum && s.step == t.step

/-- The nearest number in a range. What is not a number stays as it is. -/
def clamp (lower upper x : Float) : Float :=
  let x := if x < lower then lower else x
  if upper < x then upper else x

/-- The value of a slider for a float: within the range, and a whole number of steps above
the minimum unless the maximum cuts the last step short. What is not a number goes to the
minimum. -/
def snap (s : Slider) (x : Float) : Float :=
  if x.isNaN then
    s.minimum
  else
    let x := clamp s.minimum s.maximum x
    if s.step ≤ 0 then
      x
    else
      let steps := Number.roundHalfAway ((x - s.minimum) / s.step)
      clamp s.minimum s.maximum (s.minimum + steps * s.step)

/-- The variables that entries make when their values are snapped. -/
def snapAll (s : Slider) (entries : List (Char × Float)) : Variables :=
  Variables.ofList (entries.map fun e => (e.1, s.snap e.2))

end Slider

end SliderCalculator
