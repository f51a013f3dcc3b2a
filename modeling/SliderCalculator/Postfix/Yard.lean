import SliderCalculator.Token

/-!
# Postfix order

Tokens in the usual order, with operators between their operands and parentheses around
groups, are put into postfix order, in which an operator follows its two operands. Tokens
are added to a yard one after the other. It holds the tokens that are placed already and,
newest first, those that wait for their right operand or for the end of their group.

An operator makes way for one that binds more tightly only, so operators of equal
precedence, exponentiation among them, group to the left. A token that names no operator
neither overtakes nor is overtaken.
-/

namespace SliderCalculator

/-- The state of a conversion to postfix order. -/
structure Yard where
  /-- The tokens that have their place, in postfix order. -/
  output : List Token
  /-- The tokens that wait, the newest first. -/
  stack : List Token
deriving DecidableEq, Repr

namespace Yard

/-- The yard that nothing has been added to. -/
def empty : Yard :=
  ⟨[], []⟩

instance : Inhabited Yard :=
  ⟨empty⟩

/-- Whether a waiting token goes to the output before an incoming operator is put on the
stack: both name an operator, and the incoming one does not bind more tightly. -/
def yields (waiting incoming : Token) : Bool :=
  match waiting.precedence?, incoming.precedence? with
  | some w, some i => decide (i ≤ w)
  | _, _ => false

/-- Places an operand. -/
def addOperand (y : Yard) (t : Token) : Yard :=
  { y with output := y.output ++ [t] }

/-- Places the waiting operators that yield to a token, and lets the token wait. -/
def addOperator (y : Yard) (t : Token) : Yard where
  output := y.output ++ y.stack.takeWhile (yields · t)
  stack := t :: y.stack.dropWhile (yields · t)

/-- Places what waits since the last left parenthesis, and removes that parenthesis. With
no left parenthesis waiting, all that waits is placed. -/
def closeGroup (y : Yard) : Yard where
  output := y.output ++ y.stack.takeWhile (!·.isLeft)
  stack := (y.stack.dropWhile (!·.isLeft)).tail

/-- Whether a token can be added: a right parenthesis needs a left one that waits. -/
def accepts (y : Yard) (t : Token) : Bool :=
  !t.isRight || y.stack.any Token.isLeft

/-- The yard after a token. A right parenthesis that is not accepted still places all
that waits. -/
def add (y : Yard) (t : Token) : Yard :=
  if t.isOperand then
    y.addOperand t
  else if t.isRight then
    y.closeGroup
  else
    y.addOperator t

/-- Adds a token, and fails when it is not accepted. -/
def add? (y : Yard) (t : Token) : Except Error Yard :=
  if y.accepts t then .ok (y.add t) else .error .unbalancedParentheses

/-- The tokens in postfix order, with all that waits placed at the end. A left
parenthesis must not wait any more. -/
def finish (y : Yard) : Except Error (List Token) :=
  if y.stack.any Token.isLeft then
    .error .unbalancedParentheses
  else
    .ok (y.output ++ y.stack)

end Yard

/-- The postfix order of tokens. It fails when the parentheses are not balanced. -/
def toPostfix (ts : List Token) : Except Error (List Token) := do
  let y ← ts.foldlM Yard.add? Yard.empty
  y.finish

end SliderCalculator
