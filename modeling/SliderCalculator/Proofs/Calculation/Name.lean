import SliderCalculator.Calculation
import SliderCalculator.Proofs.Formula.Expression
import SliderCalculator.Proofs.Number.Brevity

/-!
# Formulas of one name

Passing a value through text loses nothing: a formula that is one name has the value of the name,
bit for bit, if the value has no sign. The text that is put in for the name has no more digits than
are needed, and is as near to the value as a text with so many digits can be: `calculate_name`.
-/

namespace SliderCalculator

open Formula Token

variable {name : Char} {x : Float}

/-- A name alone is replaced by the text of its value. -/
theorem Formula.substitute_name (name : Char) (x : Float) :
  substitute (.ofList [(name, x)]) [name] = Number.text x
  := by
  have he : (Variables.ofList [(name, x)]).entries = [(name, x)] := by
    simp [Variables.ofList, Variables.set, Variables.names, Variables.empty]
  simp [substitute, replaceName, he]

namespace Number.IsUnsigned

variable (h : IsUnsigned x)

include h in
/-- The text of a value is one operand. -/
theorem normalize_text :
  normalize (text x) = [operand (text x)]
  := by
  rw [normalize_eq_scan fun _ hc => isSolid_of_mem_text hc]
  apply h.isRun_text.scan_eq

include h in
/-- The operand has the value. -/
theorem operandValue_text :
  operandValue (operand (text x)) = x
  := by
  simp only [operandValue, operand, h.read?_text, Option.getD_some]

include h in
/-- The text of a value has no exponent. -/
theorem isDecimal_text :
  Numeral.IsDecimal (text x)
  := by
  rw [h.text_eq]
  apply isDecimal_magnitude h.isFinite

end Number.IsUnsigned

/-- A name alone is typed in for itself. -/
theorem Formula.tokens_name (hn : name.isAlpha = true) (values : Variables) :
  tokens values [name] = normalize (substitute values [name])
  := by
  have hm : meaningful [name] = [name] := by
    apply List.filter_eq_self.mpr
    intro c hc
    rw [List.mem_singleton.mp hc]
    simp [isMeaningful, Text.isAlphanum_iff, hn]
  rw [tokens, expression, hm, insertProducts_eq]
  rfl

/-- An operand denotes the float that it is rounded to. -/
theorem Numeral.IsWrittenAs.roundsTo_operandValue {n : Numeral} {t : Text} (h : n.IsWrittenAs t) :
  n.RoundsTo (operandValue (operand t))
  := by
  rw [← toFloat_eq_iff, operandValue, operand, Number.read?]
  simp only [read?_eq_some_iff.mpr h, Option.getD_some]

/-- A value without a sign is put in for a name as one operand, which is read as the value, and the
formula that is the name has this value. The text is a decimal without an exponent, and the shortest
numeral that is rounded to the value. Every numeral is read as the float that it is rounded to. -/
theorem calculate_name (hn : name.isAlpha = true) (hx : Number.IsUnsigned x) :
  let values := Variables.ofList [(name, x)]
  let content := substitute values [name]
  normalize content = [operand content]
    ∧ operandValue (operand content) = x
    ∧ calculate [name] values = .ok x
    ∧ Numeral.IsDecimal content
    ∧ (∃ n : Numeral, n.IsWrittenAs content ∧ n.IsShortest x)
    ∧ ∀ t, ∀ n : Numeral, n.IsWrittenAs t → n.RoundsTo (operandValue (operand t))
  := by
  intro values content
  have hc : content = Number.text x := substitute_name name x
  have hb : Text.isAllBlank [name] = false := by
    simp [Text.isAllBlank, Text.isBlank_of_isAlphanum (Text.isAlphanum_iff.mpr (.inl hn))]
  have hcalculate : calculate [name] values = evaluate [operand content] := by
    rw [calculate, hb, if_neg Bool.false_ne_true, tokens_name hn]
    change toPostfix (normalize content) >>= evaluate = _
    rw [hc, hx.normalize_text]
    rfl
  have hevaluate : evaluate [operand content] = singleValue [operandValue (operand content)] := rfl
  rw [hcalculate, hevaluate, hc, hx.operandValue_text]
  refine ⟨hx.normalize_text, rfl, ?_, hx.isDecimal_text, hx.exists_isShortest, ?_⟩
  · exact if_pos hx.isFinite
  · exact fun t n h => h.roundsTo_operandValue

/-- A tenth, which is no float, is nearest to the value that is written so. -/
theorem calculate_name_tenth :
  Char.isAlpha 'x' = true ∧ Number.IsUnsigned 0.1
    ∧ normalize (substitute (.ofList [('x', 0.1)]) ['x']) = [operand "0.1".toList]
    ∧ calculate ['x'] (.ofList [('x', 0.1)]) = .ok 0.1
  := by
  have hx : Number.IsUnsigned 0.1 := by decide +kernel
  have hc : substitute (.ofList [('x', 0.1)]) ['x'] = "0.1".toList := by decide +kernel
  obtain ⟨ht, -, hv, -⟩ := calculate_name (rfl : Char.isAlpha 'x' = true) hx
  rw [hc] at ht ⊢
  exact ⟨rfl, hx, ht, hv⟩

end SliderCalculator
