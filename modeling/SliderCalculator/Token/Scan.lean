import SliderCalculator.Text.Blank
import SliderCalculator.Token

/-!
# Reading tokens

A text is read as a list of tokens. Each longest run of letters, digits and points is an
operand, each sign of an operator and each parenthesis is a token of its own, and all
other characters only separate what stands next to them.
-/

namespace SliderCalculator

namespace Token

/-- The characters of operands. The point keeps a fractional value in one operand. -/
def isOperandChar (c : Char) : Bool :=
  c.isAlphanum || c == '.'

/-- The signs of the operators. -/
def isOperatorChar (c : Char) : Bool :=
  (Operator.ofSign? c).isSome

/-- The parentheses. -/
def isPunctuationChar (c : Char) : Bool :=
  c == '(' || c == ')'

/-- The tokens of a text in the order of their positions. -/
def scan : Text → List Token
  | [] => []
  | c :: t =>
    if isOperandChar c then
      operand (c :: t.takeWhile isOperandChar) :: scan (t.dropWhile isOperandChar)
    else if isOperatorChar c then
      operator [c] :: scan t
    else if isPunctuationChar c then
      ⟨.punctuation, [c]⟩ :: scan t
    else
      scan t
termination_by t => t.length
decreasing_by
  · exact Nat.lt_succ_of_le (List.dropWhile_sublist _).length_le
  · exact Nat.lt_succ_self _
  · exact Nat.lt_succ_self _
  · exact Nat.lt_succ_self _

/-- The tokens of a text in which blanks do not separate. -/
def normalize (t : Text) : List Token :=
  scan t.withoutBlanks

end Token

end SliderCalculator
