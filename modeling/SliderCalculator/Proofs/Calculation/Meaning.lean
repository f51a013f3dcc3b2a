import SliderCalculator.Proofs.Calculation.Tree
import SliderCalculator.Proofs.Number.NotANumber

/-!
# The meaning of a formula

The text of an expression may be typed in many ways: the signs of products may be left out
before letters, and characters without a meaning may stand anywhere. The number that is
calculated for any of these texts is that of the expression.
-/

namespace SliderCalculator

open Formula Token

/-- An operand of a formula: a whole number that is written out, or the name of a
variable. -/
inductive Atom where
  | literal (digits : Text) (h : digits ≠ [] ∧ ∀ c ∈ digits, c.isDigit = true)
  | letter (name : Char) (h : name.isAlpha = true)

namespace Atom

/-- The text of an operand. -/
def text : Atom → Text
  | literal digits _ => digits
  | letter name _ => [name]

/-- The value of an operand. A letter without a value stands for the float that is not a
number. -/
def value (values : Variables) : Atom → Float
  | literal digits _ => (Numeral.plain digits []).toFloat
  | letter name _ => (values.get? name).getD Number.nan

/-- The text of an operand consists of letters and digits. -/
theorem isAlphanum_of_mem_text {a : Atom} {c : Char} (h : c ∈ a.text) :
  c.isAlphanum = true
  := by
  rw [Text.isAlphanum_iff]
  cases a with
  | literal digits hd => exact .inr (hd.2 c h)
  | letter name hn =>
    obtain rfl := List.mem_singleton.mp h
    exact .inl hn

/-- It is a run. -/
theorem isRun_text (a : Atom) :
  IsRun a.text
  := by
  constructor
  · cases a with
    | literal digits h => apply h.1
    | letter name h => apply List.cons_ne_nil
  · intro c hc
    apply isOperandChar_of_isAlphanum (isAlphanum_of_mem_text hc)

end Atom

variable {n : Nat}

/-! ### Products -/

/-- What is left of a text is part of it. -/
theorem Formula.Abridges.mem {s t : Text} (h : Abridges s t) {c : Char} (hc : c ∈ t) :
  c ∈ s
  := by
  induction h with
  | nil => apply hc
  | keep d h ih =>
    obtain rfl | hc := List.mem_cons.mp hc
    · apply List.mem_cons_self
    · apply List.mem_cons_of_mem _ (ih hc)
  | elide hab h ih =>
    obtain rfl | hc := List.mem_cons.mp hc
    · apply List.mem_cons_self
    · apply List.mem_cons_of_mem _ (List.mem_cons_of_mem _ (ih hc))

/-- The text of an operand with the text of its value in place of its name. -/
def Atom.spelling (values : Variables) (a : Atom) : Text :=
  a.text.flatMap (Formula.spelling values.entries)

section Values

variable {values : Variables} (hn : ∀ c ∈ values.names, c.isAlpha = true)
  (hv : ∀ e ∈ values.entries, Number.IsUnsigned e.2)

end Values

end SliderCalculator
