import SliderCalculator.Proofs.Calculation.Tree
import SliderCalculator.Proofs.Token.Balance

/-!
# Which formulas have numbers

Conversion and evaluation look at the parentheses, and at how many values there are when an
operator comes. They do not see where an operand stands, so a formula in which an operand
is missing at one place and one too many stands at another may have a number. Formulas with
numbers are expressions as soon as no operand or group stands right before another one.
-/

namespace SliderCalculator

open Formula Token

variable {formula : Text} {values : Variables}

/-- Tokens that are converted and reduced to one value are balanced and hold one operand
more than operators. -/
theorem closes_and_countP_of_reduce {ts p : List Token} {x : Float}
    (hp : toPostfix ts = .ok p) (hx : p.foldlM reduce [] = .ok [x]) :
  Token.closes 0 ts = true ∧ ts.countP isOperand = ts.countP isApplied + 1
  := by
  constructor
  · apply (exists_toPostfix_iff ts).mp ⟨p, hp⟩
  · have hl := length_foldlM_reduce hx
    have hperm := perm_toPostfix hp
    have ho : (ts.filter (!·.isParenthesis)).countP isOperand = ts.countP isOperand := by
      rw [List.countP_filter]
      apply List.countP_congr
      intro t _
      rw [Bool.and_eq_true, and_iff_left_iff_imp]
      intro h
      simp [isParenthesis_of_isOperand h]
    have ha : (ts.filter (!·.isParenthesis)).countP (!·.isOperand) = ts.countP isApplied :=
      List.countP_filter
    rw [hperm.countP_eq, hperm.countP_eq, ho, ha] at hl
    simp only [List.length_singleton, List.length_nil] at hl
    omega

/-- A formula that has a value is an expression exactly when no operand or group stands
right before another one. -/
theorem isExpression_iff_of_hasValue (hv : NamesOperands values) (h : HasValue formula values) :
  IsExpression (Token.normalize (insertProducts (meaningful formula)))
    ↔ Separated (Token.normalize (insertProducts (meaningful formula)))
  := by
  rw [normalize_insertProducts]
  obtain ⟨p, x, hp, hx⟩ := h.exists_reduce
  obtain ⟨hc, hn⟩ := closes_and_countP_of_reduce hp hx
  rw [tokens_eq_scan, expression] at hc hn
  -- what values are put in for has at least as many operands to spare, but no more
  have hclosed : Token.closes 0 (scan (insertProducts (meaningful formula))) = true := by
    rw [← Text.closes_eq, closes_substitute hv, Text.closes_eq] at hc
    apply hc
  have hle := excess_substitute_le hv (isSolid_of_mem_insertProducts formula)
  rw [Text.excess_eq, Text.excess_eq] at hle
  constructor
  · intro he
    rw [isExpression_iff] at he
    apply he.2.separated.1
  · intro hs
    have hge := (alternates_of_countP _ isProper_of_mem_scan hs).1.1
    apply (isExpression_iff_separated isProper_of_mem_scan hclosed _).mpr hs
    omega

/-- A sum with a name in it that has a value, and so is an expression. -/
theorem isExpression_of_hasValue_sum :
  let values := Variables.ofList [('a', 2.5)]
  let formula := "2 + a".toList
  NamesOperands values ∧ HasValue formula values
    ∧ IsExpression (Token.normalize (insertProducts (meaningful formula)))
  := by
  intro values formula
  have hv : NamesOperands values := by
    have hn : values.names = ['a'] := by decide +kernel
    rw [NamesOperands, hn]
    exact List.forall_mem_singleton.mpr (by decide)
  have h : HasValue formula values := by
    left
    use 4.5
    decide +kernel
  have ht : Token.normalize (insertProducts (meaningful formula))
      = [operand ['2'], Operator.addition.token, operand ['a']] := by
    decide +kernel
  refine ⟨hv, h, (isExpression_iff_of_hasValue hv h).mpr ?_⟩
  rw [ht, Separated]
  decide

/-- An empty group makes up for an operand that follows it without an operator, and a name
that is the sign of an operator for the operand that the operator lacks. -/
theorem hasValue_not_isExpression :
  (check ['(', ')', '2'] = .ok ()
      ∧ calculate ['(', ')', '2'] Variables.empty = .ok 2.0
      ∧ ¬ IsExpression (Token.normalize (insertProducts (meaningful ['(', ')', '2']))))
    ∧ (check ['2', '+'] = .ok ()
      ∧ calculate ['2', '+'] ⟨[('+', 1.0)], by decide⟩ = .ok 21.0
      ∧ ¬ IsExpression (Token.normalize (insertProducts (meaningful ['2', '+']))))
  := by
  have h₁ : Token.normalize (insertProducts (meaningful ['(', ')', '2']))
      = [leftParenthesis, rightParenthesis, operand ['2']] := by
    decide +kernel
  have h₂ : Token.normalize (insertProducts (meaningful ['2', '+']))
      = [operand ['2'], Operator.addition.token] := by
    decide +kernel
  rw [h₁, h₂]
  refine ⟨⟨by decide +kernel, by decide +kernel, ?_⟩, by decide +kernel, by decide +kernel, ?_⟩
  · intro h
    have hs := ((isExpression_iff _).mp h).2.separated.1
    rw [Separated] at hs
    revert hs
    decide
  · rintro ⟨d, hd⟩
    have hn := d.countP_tokens
    rw [hd] at hn
    simp [List.countP_cons] at hn

end SliderCalculator
