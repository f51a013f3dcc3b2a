import SliderCalculator.Formula.Product
import SliderCalculator.Number.Layout
import SliderCalculator.Variables

/-!
# Expressions

The expression of a formula is the text that is evaluated: the characters of the formula
that have a meaning, with a sign for every product, and with values in place of the names
that have one. Names are replaced one after the other, in the order of the variables.
-/

namespace SliderCalculator.Formula

/-- The text with the text of a value in place of each occurrence of a name. -/
def replaceName (name : Char) (value : Float) (t : Text) : Text :=
  t.flatMap fun c => if c = name then Number.text value else [c]

/-- The text with values in place of names. -/
def substitute (values : Variables) (t : Text) : Text :=
  values.entries.foldl (fun t e => replaceName e.1 e.2 t) t

/-- The expression of a formula. -/
def expression (values : Variables) (formula : Text) : Text :=
  substitute values (insertProducts (meaningful formula))

/-- The tokens of the expression of a formula. -/
def tokens (values : Variables) (formula : Text) : List Token :=
  Token.normalize (expression values formula)

end SliderCalculator.Formula
