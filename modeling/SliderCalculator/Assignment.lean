import SliderCalculator.Error
import SliderCalculator.Number.Layout
import SliderCalculator.Number.Numeral
import SliderCalculator.Text.Blank

/-!
# Assignments

An assignment `name = value` gives a variable a value. The name is one letter, and the
value is finite and not negative, since a minus sign in an expression would be taken for
an operator.
-/

namespace SliderCalculator

/-- A variable and the value that it is given. -/
structure Assignment where
  name : Char
  value : Float
deriving DecidableEq

namespace Assignment

/-- The name that a text consists of, apart from blanks around it. -/
def readName? (t : Text) : Option Char :=
  match t.trim with
  | [c] => if c.isAlpha then some c else none
  | _ => none

/-- The value that a text consists of, apart from blanks around it. -/
def readValue? (t : Text) : Option Float :=
  match Number.read? t.trim with
  | some x => if x.isFinite && !decide (x < 0) then some x else none
  | none => none

/-- The assignment that a text writes: a name and a value on the two sides of the first
equals sign. -/
def read? (t : Text) : Option Assignment :=
  match t.span (· != '=') with
  | (left, _ :: right) =>
    match readName? left, readValue? right with
    | some name, some value => some { name, value }
    | _, _ => none
  | (_, []) => none

/-- Reads an assignment, and reports the whole text when it writes none. -/
def read (t : Text) : Except Error Assignment :=
  match read? t with
  | some a => .ok a
  | none => .error (.notAssignment t)

/-- The text of an assignment. -/
def text (a : Assignment) : Text :=
  a.name :: (" = ".toList ++ Number.text a.value)

end Assignment

end SliderCalculator
