import SliderCalculator.Text.Ascii

/-!
# Errors

The ways in which a request to the calculator fails, with the message of each.
-/

namespace SliderCalculator

/-- What is wrong with the numbers that a slider is to be made of. -/
inductive SliderFault where
  | notFinite
  | negativeMinimum
  | minimumAboveMaximum
  | negativeStep
deriving DecidableEq, Repr

/-- The fault in words. -/
def SliderFault.reason : SliderFault → String
  | notFinite => "bounds and step must be finite"
  | negativeMinimum => "minimum must not be negative"
  | minimumAboveMaximum => "minimum must not exceed maximum"
  | negativeStep => "step must not be negative"

/-- Why a request fails. -/
inductive Error where
  /-- The formula is blank. -/
  | emptyFormula
  /-- A parenthesis has no partner. -/
  | unbalancedParentheses
  | divisionByZero
  /-- A token that stands for an operator is not the name of one. -/
  | unknownOperator (content : Text)
  /-- An operator lacks a value, or more than one value is left over, or none. -/
  | notSingleValue
  /-- The value is infinite or not a number. -/
  | notFinite
  /-- A formula holds a character outside the alphabet of formulas. -/
  | foreignCharacter (character : Char)
  | notAssignment (text : Text)
  | badSlider (fault : SliderFault)
deriving DecidableEq, Repr

namespace Error

/-- The name of the kind of an error. -/
def name : Error → String
  | emptyFormula => "empty_formula"
  | unbalancedParentheses => "malformed_expression"
  | divisionByZero => "division_by_zero"
  | unknownOperator _ => "invalid_operator"
  | notSingleValue => "invalid_expression"
  | notFinite => "invalid_result"
  | foreignCharacter _ => "invalid_character"
  | notAssignment _ => "invalid_assignment"
  | badSlider _ => "invalid_slider"

/-- The text with a quotation mark on each side. -/
def quoted (t : Text) : Text :=
  '\'' :: (t ++ ['\''])

/-- The message of an error. -/
def message : Error → Text
  | emptyFormula => "formula is required".toList
  | unbalancedParentheses => "parentheses are not balanced".toList
  | divisionByZero => "division by zero".toList
  | unknownOperator content => quoted content ++ " is not a valid operator".toList
  | notSingleValue => "expression does not reduce to a single value".toList
  | notFinite => "result is not a finite number".toList
  | foreignCharacter c =>
    "invalid character, ".toList ++ quoted [c] ++ ", encountered".toList
  | notAssignment t => quoted t ++ " is not a valid assignment".toList
  | badSlider fault => "invalid slider: ".toList ++ fault.reason.toList

end Error

end SliderCalculator
