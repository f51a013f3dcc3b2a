import SliderCalculator.Operator

/-!
# Tokens

A token is a piece of a formula: an operand, an operator, or a punctuation mark, with the
text that it consists of. Kind and text need not fit each other in a list of tokens that
was not read from a formula. Reading is the subject of `SliderCalculator.Token.Scan`.
-/

namespace SliderCalculator

/-- The kind of a token. -/
inductive TokenKind where
  | operand
  | operator
  | punctuation
deriving DecidableEq, Repr

/-- A piece of a formula. -/
structure Token where
  kind : TokenKind
  content : Text
deriving DecidableEq, Repr

namespace Token

/-- The operand with a text. -/
def operand (content : Text) : Token :=
  ⟨.operand, content⟩

/-- The operator with a text. -/
def operator (content : Text) : Token :=
  ⟨.operator, content⟩

/-- The left parenthesis. -/
def leftParenthesis : Token :=
  ⟨.punctuation, ['(']⟩

/-- The right parenthesis. -/
def rightParenthesis : Token :=
  ⟨.punctuation, [')']⟩

/-- Whether a token is the left parenthesis. -/
def isLeft (t : Token) : Bool :=
  t = leftParenthesis

/-- Whether a token is the right parenthesis. -/
def isRight (t : Token) : Bool :=
  t = rightParenthesis

/-- Whether a token is an operand. -/
def isOperand (t : Token) : Bool :=
  t.kind = .operand

/-- The operator whose sign is the text of a token, whatever the kind of the token. -/
def operator? (t : Token) : Option Operator :=
  Operator.ofText? t.content

/-- How tightly the operator that a token names binds. Parentheses and texts that name no
operator have no precedence. -/
def precedence? (t : Token) : Option Nat :=
  t.operator?.map Operator.precedence

@[simp]
theorem isLeft_iff {t : Token} :
  t.isLeft = true ↔ t = leftParenthesis
  := by
  simp [isLeft]

@[simp]
theorem isRight_iff {t : Token} :
  t.isRight = true ↔ t = rightParenthesis
  := by
  simp [isRight]

@[simp]
theorem precedence?_leftParenthesis :
  leftParenthesis.precedence? = none
  := rfl

@[simp]
theorem precedence?_rightParenthesis :
  rightParenthesis.precedence? = none
  := rfl

/-- The texts of tokens with a space between each two. -/
def render (ts : List Token) : Text :=
  [' '].intercalate (ts.map content)

end Token

end SliderCalculator
