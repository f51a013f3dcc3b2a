import SliderCalculator.Proofs.Calculation.Tree
import SliderCalculator.Proofs.Token.Balance

/-!
# How calculations end

A formula can have several faults. That it is blank counts first, then that its parentheses are not
balanced, and only then what keeps its tokens from being evaluated to a finite number. The first two
can be told from the formula, whatever values its letters have: `calculate_eq_error_iff`.
-/

namespace SliderCalculator

open Formula Token

variable {formula : Text} {values : Variables}

/-- A blank formula has no parentheses. -/
theorem isBalanced_of_isAllBlank (h : formula.isAllBlank = true) :
  formula.IsBalanced
  := by
  have hp : ∀ c ∈ formula, c ≠ '(' ∧ c ≠ ')' := by
    intro c hc
    have hb := List.all_eq_true.mp h c hc
    constructor <;>
    · rintro rfl
      contradiction
  rw [← Text.closes_zero_iff, ← List.append_nil formula, Text.closes_append hp]
  rfl

/-- A formula is converted when its parentheses are balanced, and not otherwise. -/
theorem exists_toPostfix_tokens_iff (hv : ∀ c ∈ values.names, isPunctuationChar c = false) :
  (∃ p, toPostfix (tokens values formula) = .ok p) ↔ formula.IsBalanced
  := by
  rw [exists_toPostfix_iff, tokens_eq_scan, ← Text.closes_eq, closes_expression hv,
    Text.closes_zero_iff]

/-- How a calculation can end: with the first fault of the formula, or with what its evaluation
comes to. -/
inductive EndsAs (formula : Text) : Except Error Float → Prop where
  | blank (h : formula.isAllBlank = true) : EndsAs formula (.error .emptyFormula)
  | unbalanced (h : formula.isAllBlank = false) (hb : ¬ formula.IsBalanced) :
      EndsAs formula (.error .unbalancedParentheses)
  | number (h : formula.isAllBlank = false) (hb : formula.IsBalanced) {x : Float}
      (hx : x.isFinite = true) : EndsAs formula (.ok x)
  | divisionByZero (h : formula.isAllBlank = false) (hb : formula.IsBalanced) :
      EndsAs formula (.error .divisionByZero)
  | notSingleValue (h : formula.isAllBlank = false) (hb : formula.IsBalanced) :
      EndsAs formula (.error .notSingleValue)
  | notFinite (h : formula.isAllBlank = false) (hb : formula.IsBalanced) :
      EndsAs formula (.error .notFinite)

theorem endsAs_calculate (hv : ∀ c ∈ values.names, isPunctuationChar c = false) :
  EndsAs formula (calculate formula values)
  := by
  cases hb : formula.isAllBlank with
  | true =>
    rw [calculate, if_pos hb]
    apply EndsAs.blank hb
  | false =>
    have hi : (∃ p, toPostfix (tokens values formula) = .ok p) ↔ formula.IsBalanced :=
      exists_toPostfix_tokens_iff hv
    rw [calculate_eq_bind hb]
    cases hp : toPostfix (tokens values formula) with
    | error e =>
      rw [eq_of_toPostfix_eq_error hp]
      apply EndsAs.unbalanced hb
      intro hbal
      obtain ⟨p, hq⟩ := hi.mpr hbal
      rw [hp] at hq
      contradiction
    | ok p =>
      have hbal := hi.mp ⟨p, hp⟩
      change EndsAs formula (evaluate p)
      obtain ⟨x, h, hx⟩ | h | h | h := evaluate_cases (isProper_of_toPostfix hp) <;> rw [h]
      · apply EndsAs.number hb hbal hx
      · apply EndsAs.divisionByZero hb hbal
      · apply EndsAs.notSingleValue hb hbal
      · apply EndsAs.notFinite hb hbal

namespace EndsAs

variable {r : Except Error Float} (h : EndsAs formula r)

include h

theorem emptyFormula_iff :
  r = .error .emptyFormula ↔ ∀ c ∈ formula, Text.isBlank c = true
  := by
  have hb : formula.isAllBlank = true ↔ ∀ c ∈ formula, Text.isBlank c = true := List.all_eq_true
  rw [← hb]
  cases h with
  | blank h => simp [h]
  | unbalanced h | number h | divisionByZero h | notSingleValue h | notFinite h => simp [h]

theorem unbalancedParentheses_iff :
  r = .error .unbalancedParentheses ↔ ¬ formula.IsBalanced
  := by
  cases h with
  | blank h => simp [isBalanced_of_isAllBlank h]
  | unbalanced h hb => simp [hb]
  | number h hb | divisionByZero h hb | notSingleValue h hb | notFinite h hb => simp [hb]

/-- Without these two faults the tokens are evaluated. -/
theorem of_isBalanced (hs : ∃ c ∈ formula, Text.isBlank c = false) (hb : formula.IsBalanced) :
  (∃ x, r = .ok x ∧ x.isFinite = true) ∨ r = .error .divisionByZero
    ∨ r = .error .notSingleValue ∨ r = .error .notFinite
  := by
  cases h with
  | blank h =>
    obtain ⟨c, hc, hf⟩ := hs
    rw [List.all_eq_true.mp h c hc] at hf
    contradiction
  | unbalanced h hn => contradiction
  | number h hb hx => exact .inl ⟨_, rfl, hx⟩
  | divisionByZero => exact .inr (.inl rfl)
  | notSingleValue => exact .inr (.inr (.inl rfl))
  | notFinite => exact .inr (.inr (.inr rfl))

/-- Other errors do not come from calculations. -/
theorem ne_of_eq_error {e : Error} (he : r = .error e) :
  (∀ t, e ≠ .unknownOperator t) ∧ (∀ c, e ≠ .foreignCharacter c)
    ∧ (∀ t, e ≠ .notAssignment t) ∧ ∀ f, e ≠ .badSlider f
  := by
  cases h <;> cases he <;> simp

end EndsAs

/-- Where no parenthesis is a name, a calculation fails for a blank formula first, then for
parentheses that are not balanced, and otherwise only because it comes to no finite number. -/
theorem calculate_eq_error_iff (hl : '(' ∉ values.names) (hr : ')' ∉ values.names) :
  (calculate formula values = .error .emptyFormula ↔ ∀ c ∈ formula, Text.isBlank c = true)
    ∧ (calculate formula values = .error .unbalancedParentheses ↔ ¬ formula.IsBalanced)
    ∧ ((∃ c ∈ formula, Text.isBlank c = false) → formula.IsBalanced →
      (∃ x, calculate formula values = .ok x ∧ x.isFinite = true)
        ∨ calculate formula values = .error .divisionByZero
        ∨ calculate formula values = .error .notSingleValue
        ∨ calculate formula values = .error .notFinite)
    ∧ ∀ e, calculate formula values = .error e →
      (∀ t, e ≠ .unknownOperator t) ∧ (∀ c, e ≠ .foreignCharacter c)
        ∧ (∀ t, e ≠ .notAssignment t) ∧ ∀ f, e ≠ .badSlider f
  := by
  have hv : ∀ c ∈ values.names, isPunctuationChar c = false := by
    intro c hc
    apply eq_false_of_ne_true
    rw [isPunctuationChar_iff]
    rintro (rfl | rfl)
    · apply hl hc
    · apply hr hc
  have h : EndsAs formula (calculate formula values) := endsAs_calculate hv
  exact ⟨h.emptyFormula_iff, h.unbalancedParentheses_iff, h.of_isBalanced,
    fun e => h.ne_of_eq_error⟩

/-- A formula with a division by zero in it whose parentheses are not balanced, and a name that is
the sign of an operator. -/
theorem calculate_unbalanced :
  let values := Variables.ofList [('+', Number.nan)]
  let formula := "1/0) + (".toList
  '(' ∉ values.names ∧ ')' ∉ values.names
    ∧ calculate formula values = .error .unbalancedParentheses
    ∧ calculate "1/0".toList values = .error .divisionByZero
  := by
  intro values formula
  have hn : values.names = ['+'] := by decide +kernel
  have hl : '(' ∉ values.names := by
    rw [hn]
    decide
  have hr : ')' ∉ values.names := by
    rw [hn]
    decide
  refine ⟨hl, hr, ?_, by decide +kernel⟩
  apply (calculate_eq_error_iff hl hr).2.1.mpr
  intro h
  have hle := h.le "1/0)".toList ⟨" + (".toList, rfl⟩
  revert hle
  decide

end SliderCalculator
