/-!
# Text, letters and digits

Text is the list of its characters. A letter and a digit are those of ASCII unless
something else is said, and this module tells their code points.
-/

namespace SliderCalculator

/-- Text is the list of its characters. -/
abbrev Text := List Char

namespace Text

/-- The code points of the digits. -/
theorem isDigit_iff {c : Char} :
  c.isDigit = true ↔ 48 ≤ c.toNat ∧ c.toNat ≤ 57
  := by
  change (decide (48 ≤ c.val) && decide (c.val ≤ 57)) = true ↔ _
  simp only [Bool.and_eq_true, decide_eq_true_eq, UInt32.le_iff_toNat_le]
  rfl

/-- The code points of the letters. -/
theorem isAlpha_iff {c : Char} :
  c.isAlpha = true
    ↔ (65 ≤ c.toNat ∧ c.toNat ≤ 90) ∨ (97 ≤ c.toNat ∧ c.toNat ≤ 122)
  := by
  change (decide (65 ≤ c.val ∧ c.val ≤ 90)
    || (decide (97 ≤ c.val) && decide (c.val ≤ 122))) = true ↔ _
  simp only [Bool.or_eq_true, Bool.and_eq_true, decide_eq_true_eq, UInt32.le_iff_toNat_le]
  rfl

/-- A letter or digit is one or the other. -/
theorem isAlphanum_iff {c : Char} :
  c.isAlphanum = true ↔ c.isAlpha = true ∨ c.isDigit = true
  := by
  change (c.isAlpha || c.isDigit) = true ↔ _
  apply Bool.or_eq_true_iff

/-- A digit is no letter. -/
theorem isAlpha_of_isDigit {c : Char} (h : c.isDigit = true) :
  c.isAlpha = false
  := by
  apply eq_false_of_ne_true
  rw [isDigit_iff] at h
  rw [isAlpha_iff]
  omega

end Text

end SliderCalculator
