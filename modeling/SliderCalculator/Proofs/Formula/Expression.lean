import SliderCalculator.Proofs.Formula.Product
import SliderCalculator.Proofs.Formula.Substitution
import SliderCalculator.Proofs.Number.RoundTrip
import SliderCalculator.Proofs.Token.Scan

/-!
# The characters of expressions

All characters of an expression belong to a token: the formula is stripped of the others
first, and the text of a value has none. In particular an expression has no blanks.
-/

namespace SliderCalculator

open Token

/-! ### Texts of values -/

namespace Number

/-- The text of a number without its sign is read as one operand. -/
theorem isRun_magnitude (u : Float.Model.UnpackedFloat) :
  IsRun (valueLayout.magnitude u)
  := by
  cases u with
  | finite s m q hm =>
    constructor
    · apply positional_ne_nil (Decimal.digits_ne_nil _)
    · intro c hc
      obtain h | rfl := mem_magnitude (u := .finite s m q hm) rfl hc
      · simp [isOperandChar, Text.isAlphanum_iff, h]
      · rfl
  | notANumber => exact ⟨List.cons_ne_nil _ _, List.all_eq_true.mp rfl⟩
  | infinity s | zero s => cases s <;> exact ⟨List.cons_ne_nil _ _, List.all_eq_true.mp rfl⟩

/-- The text of a number is a run, or a minus sign and a run. -/
theorem text_cases (x : Float) :
  IsRun (text x) ∨ ∃ content, IsRun content ∧ text x = Operator.subtraction.sign :: content
  := by
  rw [text, Layout.write]
  split
  · right
    exact ⟨_, isRun_magnitude _, rfl⟩
  · left
    apply isRun_magnitude

/-- The text of a number without a sign is a run. -/
theorem IsUnsigned.isRun_text {x : Float} (h : IsUnsigned x) :
  IsRun (text x)
  := by
  rw [h.text_eq]
  apply isRun_magnitude

end Number

namespace Formula

/-! ### Characters of tokens -/

theorem isSolid_of_isMeaningful {c : Char} (h : isMeaningful c = true) :
  isSolid c = true
  := by
  simp only [isMeaningful, isSolid, isOperandChar, Bool.or_eq_true] at h ⊢
  tauto

/-- A character of a token is not a blank. -/
theorem isBlank_of_isSolid {c : Char} (h : isSolid c = true) :
  Text.isBlank c = false
  := by
  simp only [isSolid, isOperandChar, Bool.or_eq_true, beq_iff_eq] at h
  obtain ((h | rfl) | h) | h := h
  · apply Text.isBlank_of_isAlphanum h
  · rfl
  · obtain ⟨o, rfl⟩ := isOperatorChar_iff.mp h
    cases o <;> rfl
  · obtain rfl | rfl := isPunctuationChar_iff.mp h <;> rfl

/-- A text whose characters belong to tokens has no blanks to leave out. -/
theorem normalize_eq_scan {t : Text} (h : ∀ c ∈ t, isSolid c = true) :
  Token.normalize t = scan t
  := by
  have ht : t.withoutBlanks = t := by
    apply List.filter_eq_self.mpr
    intro c hc
    rw [isBlank_of_isSolid (h c hc)]
    rfl
  rw [Token.normalize, ht]

/-- The characters of a formula with a sign for every product have a meaning. -/
theorem isMeaningful_of_mem_insertProducts {c : Char} {formula : Text}
    (h : c ∈ insertProducts (meaningful formula)) :
  isMeaningful c = true
  := by
  rw [insertProducts_eq] at h
  obtain h | rfl := mem_spellProducts h
  · apply (List.mem_filter.mp h).2
  · rfl

/-- The text of a value belongs to tokens. -/
theorem isSolid_of_mem_text {x : Float} {c : Char} (h : c ∈ Number.text x) :
  isSolid c = true
  := by
  obtain ⟨-, hc⟩ | ⟨content, ⟨-, hc⟩, ht⟩ := Number.text_cases x
  · simp [isSolid, hc c h]
  · rw [ht] at h
    obtain rfl | h := List.mem_cons.mp h
    · rfl
    · simp [isSolid, hc c h]

/-- Replacing names keeps to characters of tokens. -/
theorem isSolid_of_mem_replaceName {name : Char} {x : Float} {t : Text}
    (ht : ∀ c ∈ t, isSolid c = true) :
  ∀ c ∈ replaceName name x t, isSolid c = true
  := by
  intro c h
  obtain ⟨d, hd, h⟩ := List.mem_flatMap.mp h
  split at h
  · apply isSolid_of_mem_text h
  · obtain rfl := List.mem_singleton.mp h
    apply ht c hd

/-- Substitution keeps to characters of tokens. -/
theorem isSolid_of_mem_substitute {values : Variables} {t : Text}
    (ht : ∀ c ∈ t, isSolid c = true) :
  ∀ c ∈ substitute values t, isSolid c = true
  := substitute_induction (motive := fun u => ∀ c ∈ u, isSolid c = true) ht
    fun _ _ _ hu => isSolid_of_mem_replaceName hu

/-- The characters of a formula with a sign for every product belong to tokens. -/
theorem isSolid_of_mem_insertProducts (formula : Text) :
  ∀ c ∈ insertProducts (meaningful formula), isSolid c = true
  := fun _ hc => isSolid_of_isMeaningful (isMeaningful_of_mem_insertProducts hc)

/-- The characters of the expression of a formula belong to tokens. -/
theorem isSolid_of_mem_expression (values : Variables) (formula : Text) :
  ∀ c ∈ expression values formula, isSolid c = true
  := isSolid_of_mem_substitute (isSolid_of_mem_insertProducts formula)

/-- The tokens of a formula before values are put in. -/
theorem normalize_insertProducts (formula : Text) :
  Token.normalize (insertProducts (meaningful formula)) = scan (insertProducts (meaningful formula))
  := normalize_eq_scan (isSolid_of_mem_insertProducts formula)

/-- The tokens of the expression of a formula are read off the whole expression. -/
theorem tokens_eq_scan (values : Variables) (formula : Text) :
  tokens values formula = scan (expression values formula)
  := normalize_eq_scan (isSolid_of_mem_expression values formula)

end Formula

end SliderCalculator
