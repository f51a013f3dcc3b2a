import SliderCalculator.Error
import SliderCalculator.Token.Scan

/-!
# The alphabet of formulas

A formula is typed with letters and digits of ASCII, the signs of the operators,
parentheses and blanks. What else a text holds is refused where formulas are typed in,
and dropped where a text is evaluated. Each letter is the name of a variable.
-/

namespace SliderCalculator.Formula

/-- Whether a character belongs to a token. -/
def isSolid (c : Char) : Bool :=
  Token.isOperandChar c || Token.isOperatorChar c || Token.isPunctuationChar c

/-- Whether a character may stand in a formula that is typed in. -/
def isAllowed (c : Char) : Bool :=
  c.isAlphanum || Text.isBlank c || Token.isOperatorChar c || Token.isPunctuationChar c

/-- Accepts a text whose characters are all allowed, and names the first that is not. -/
def check (formula : Text) : Except Error Unit :=
  match formula.find? (!isAllowed ·) with
  | some c => .error (.foreignCharacter c)
  | none => .ok ()

/-- Whether a character of a formula has a meaning. The point has none, so that only the
values of variables are fractional. -/
def isMeaningful (c : Char) : Bool :=
  c.isAlphanum || Token.isOperatorChar c || Token.isPunctuationChar c

/-- The characters of a formula that have a meaning. -/
def meaningful (formula : Text) : Text :=
  formula.filter isMeaningful

/-- The letters of a formula in the order in which they first appear. -/
def letters (formula : Text) : List Char :=
  (formula.filter Char.isAlpha).eraseDups

/-- Erasing repetitions leaves none. -/
theorem nodup_eraseDups (cs : List Char) :
  cs.eraseDups.Nodup
  := by
  match cs with
  | [] => simp
  | c :: cs =>
    rw [List.eraseDups_cons, List.nodup_cons]
    refine ⟨?_, nodup_eraseDups _⟩
    simp
termination_by cs.length
decreasing_by exact Nat.lt_succ_of_le (List.length_filter_le _ _)

/-- No letter is listed twice. -/
theorem nodup_letters (formula : Text) :
  (letters formula).Nodup
  := nodup_eraseDups _

end SliderCalculator.Formula
