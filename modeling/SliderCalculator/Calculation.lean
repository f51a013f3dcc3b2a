import SliderCalculator.Formula.Expression
import SliderCalculator.Postfix.Evaluation
import SliderCalculator.Postfix.Yard

/-!
# Calculation

The number that a formula has under given values of its variables.
-/

namespace SliderCalculator

/-- The number of a formula, or what keeps it from having one. -/
def calculate (formula : Text) (values : Variables) : Except Error Float :=
  if formula.isAllBlank then
    .error .emptyFormula
  else do
    let ts ← toPostfix (Formula.tokens values formula)
    evaluate ts

end SliderCalculator
