import SliderCalculator.Error
import SliderCalculator.Number.Arithmetic

/-!
# Operators

The five binary operators: their signs, their precedence and what they compute.
-/

namespace SliderCalculator

/-- A binary operator. -/
inductive Operator where
  | addition
  | subtraction
  | multiplication
  | division
  | exponentiation
deriving DecidableEq, Repr

namespace Operator

/-- The character that an operator is written with. -/
def sign : Operator → Char
  | addition => '+'
  | subtraction => '-'
  | multiplication => '*'
  | division => '/'
  | exponentiation => '^'

/-- The operator that a character is the sign of. -/
def ofSign? : Char → Option Operator
  | '+' => some addition
  | '-' => some subtraction
  | '*' => some multiplication
  | '/' => some division
  | '^' => some exponentiation
  | _ => none

@[simp]
theorem ofSign?_sign (o : Operator) :
  ofSign? o.sign = some o
  := by
  cases o <;> rfl

/-- The operator that a text is the sign of. -/
def ofText? : Text → Option Operator
  | [c] => ofSign? c
  | _ => none

/-- How tightly an operator binds. -/
def precedence : Operator → Nat
  | addition | subtraction => 1
  | multiplication | division => 2
  | exponentiation => 3

/-- The result of an operator. Division by a zero of either sign fails; any other result
may be infinite or not a number. -/
def apply : Operator → Float → Float → Except Error Float
  | addition, x, y => .ok (x + y)
  | subtraction, x, y => .ok (x - y)
  | multiplication, x, y => .ok (x * y)
  | division, x, y => if y == 0.0 then .error .divisionByZero else .ok (x / y)
  | exponentiation, x, y => .ok (Number.power x y)

end Operator

end SliderCalculator
