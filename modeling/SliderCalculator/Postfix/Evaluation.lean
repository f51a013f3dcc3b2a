import SliderCalculator.Number.Arithmetic
import SliderCalculator.Token

/-!
# Evaluation of postfix order

Tokens in postfix order are reduced to one number. The values not used so far are kept
newest first, so the right operand of an operator comes before the left one.
-/

namespace SliderCalculator

/-- The value of an operand. What does not denote a number, such as a letter without a
value, counts as the float that is not a number. -/
def operandValue (t : Token) : Float :=
  (Number.read? t.content).getD Number.nan

/-- The values after a token. A missing value is noticed before an unknown operator, and
an unknown operator before a division by zero. -/
def reduce (values : List Float) (t : Token) : Except Error (List Float) :=
  if t.isOperand then
    .ok (operandValue t :: values)
  else
    match values with
    | right :: left :: rest =>
      match t.operator? with
      | some o => (o.apply left right).map (· :: rest)
      | none => .error (.unknownOperator t.content)
    | _ => .error .notSingleValue

/-- The result that values left over stand for: there must be one, and it must be
finite. -/
def singleValue : List Float → Except Error Float
  | [x] => if x.isFinite then .ok x else .error .notFinite
  | _ => .error .notSingleValue

/-- The number that tokens in postfix order reduce to. -/
def evaluate (ts : List Token) : Except Error Float := do
  let values ← ts.foldlM reduce []
  singleValue values

end SliderCalculator
