import SliderCalculator.Calculation
import SliderCalculator.Proofs.Formula.Expression
import SliderCalculator.Proofs.Formula.Letters
import SliderCalculator.Proofs.Variables.Lookup

/-!
# The values that a calculation uses

A calculation looks up the letters of its formula and nothing else. Variables that say the same
about these letters give the same result, whatever other names they have and in whatever order:
`calculate_congr`.
-/

namespace SliderCalculator

open Formula

/-- Whether the names of variables are letters and the values finite, so that the texts of the
values hold no names. -/
structure Variables.IsPlain (v : Variables) : Prop where
  isAlpha : ∀ c ∈ v.names, c.isAlpha = true
  isFinite : ∀ e ∈ v.entries, e.2.isFinite = true

variable {v w : Variables}

/-- Substitution depends on the values of the characters of the text only. -/
theorem Formula.substitute_congr (hv : v.IsPlain) (hw : w.IsPlain) {t : Text}
    (h : ∀ c ∈ t, v.get? c = w.get? c) :
  substitute v t = substitute w t
  := substitute_eq_of_get?_eq hw.isAlpha (fun e he _ => hw.isFinite e he) hv.isAlpha h

/-- What is no letter has no value. -/
theorem Variables.IsPlain.get?_eq_none (hv : v.IsPlain) {c : Char} (hc : c.isAlpha = false) :
  v.get? c = none
  := by
  rw [get?_eq_none_iff]
  intro h
  rw [hv.isAlpha c h] at hc
  contradiction

/-- The letters of an expression are letters of the formula. -/
theorem Formula.mem_letters_of_mem_insertProducts {formula : Text} {c : Char}
    (h : c ∈ insertProducts (meaningful formula)) (hc : c.isAlpha = true) :
  c ∈ letters formula
  := by
  rw [insertProducts_eq] at h
  obtain h | rfl := mem_spellProducts h
  · exact mem_letters.mpr ⟨List.mem_of_mem_filter h, hc⟩
  · contradiction

/-- A calculation depends on the values of the letters of the formula only. -/
theorem calculate_congr (hv : v.IsPlain) (hw : w.IsPlain) {formula : Text}
    (h : ∀ c ∈ letters formula, v.get? c = w.get? c) :
  calculate formula v = calculate formula w
  := by
  have he : expression v formula = expression w formula := by
    apply substitute_congr hv hw
    intro c hc
    cases ha : c.isAlpha with
    | true => apply h c (mem_letters_of_mem_insertProducts hc ha)
    | false => rw [hv.get?_eq_none ha, hw.get?_eq_none ha]
  rw [calculate, calculate, tokens, tokens, he]

end SliderCalculator
