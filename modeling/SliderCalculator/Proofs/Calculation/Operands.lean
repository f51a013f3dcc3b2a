import SliderCalculator.Proofs.Calculation.Values
import SliderCalculator.Proofs.Formula.Operands
import SliderCalculator.Proofs.Number.Sign

/-!
# Operands with values

The operands of an expression are read off a text in which values have been put in, so a value
and the digits right after its letter are one operand: `operand_mem_tokens_iff`. Apart from these
digits nothing goes on with a value, and numbers of the formula stay as they are.
-/

namespace SliderCalculator

open Formula Token

/-- Whether no value that is put in for a letter of a formula is written with names: names that may
stand in expressions are letters, and the letters of the formula have finite values, if any. -/
structure Variables.IsPlainFor (v : Variables) (formula : Text) : Prop where
  isAlpha : ∀ c ∈ v.names, isSolid c = true → c.isAlpha = true
  isFinite : ∀ c ∈ letters formula, ∀ x ∈ v.get? c, x.isFinite = true

theorem Variables.IsPlain.isPlainFor {v : Variables} (h : v.IsPlain) (formula : Text) :
  v.IsPlainFor formula
  := by
  constructor
  case isAlpha => exact fun c hc _ => h.isAlpha c hc
  case isFinite => exact fun c _ x hx => h.isFinite (c, x) (get?_eq_some_iff.mp hx)

/-! ### Tokens with values -/

/-- The tokens that a token becomes when values are put in for the letters in it. -/
def Token.expand (values : Variables) (u : Token) : List Token :=
  scan (u.content.flatMap (spelling values.entries))

/-- The minus sign of a letter whose value has one, as a token. -/
def Variables.sign (values : Variables) (c : Char) : List Token :=
  match values.get? c with
  | some x => if Number.IsSigned x then [Operator.subtraction.token] else []
  | none => []

/-- What stands for a letter in an operand: its value without the sign, or the letter itself if it
has no value. -/
def Variables.magnitude (values : Variables) (c : Char) : Text :=
  match values.get? c with
  | some x => Number.magnitude x
  | none => [c]

/-- A letter has a sign when its value is written with one. -/
theorem Variables.sign_eq_nil_iff {values : Variables} {c : Char} :
  values.sign c = [] ↔ ∀ x ∈ values.get? c, ¬ Number.IsSigned x
  := by
  rw [sign]
  cases values.get? c with
  | none => simp
  | some x =>
    by_cases h : Number.IsSigned x <;> simp [h]

/-- The sign of a value is no operand. -/
theorem Variables.isOperand_of_mem_sign {values : Variables} {c : Char} {u : Token}
    (h : u ∈ values.sign c) :
  u.isOperand = false
  := by
  rw [sign] at h
  split at h
  · split at h
    · cases List.mem_singleton.mp h
      rfl
    · contradiction
  · contradiction

namespace Formula

variable {values : Variables} {formula : Text} (hv : values.IsPlainFor formula)

include hv in
/-- Values are put in for all letters at once. -/
theorem expression_eq_flatMap :
  expression values formula
    = (insertProducts (meaningful formula)).flatMap (spelling values.entries)
  := by
  apply substitute_eq_of_not_mem
  intro e he hm c hc hn
  have ha := hv.isAlpha e.1 (List.mem_map_of_mem he) (isSolid_of_mem_insertProducts formula _ hm)
  have hl := mem_letters_of_mem_insertProducts hm ha
  have hf := hv.isFinite e.1 hl e.2 (Variables.get?_eq_some_iff.mpr he)
  have hca := hv.isAlpha c hn (isSolid_of_mem_text hc)
  rw [Number.isAlpha_of_mem_text hf hc] at hca
  contradiction

include hv in
/-- Only letters have values. -/
theorem spelling_of_isSolid {c : Char} (hs : isSolid c = true) (ha : c.isAlpha = false) :
  spelling values.entries c = [c]
  := by
  apply spelling_of_not_mem
  intro hn
  rw [hv.isAlpha c hn hs] at ha
  contradiction

include hv in
/-- The tokens of an expression are those that the tokens of the formula become. -/
theorem tokens_eq_flatMap :
  tokens values formula
    = (scan (insertProducts (meaningful formula))).flatMap (Token.expand values)
  := by
  rw [tokens_eq_scan, expression_eq_flatMap hv]
  apply scan_flatMap
  intro c hc ho
  apply spelling_of_isSolid hv (isSolid_of_mem_insertProducts formula c hc)
  apply eq_false_of_ne_true
  intro ha
  rw [isOperandChar_of_isAlphanum (Text.isAlphanum_iff.mpr (.inl ha))] at ho
  contradiction

theorem isSolid_of_isDigit {c : Char} (h : c.isDigit = true) :
  isSolid c = true
  := by
  simp [isSolid, isOperandChar, Text.isAlphanum_iff, h]

include hv in
/-- Digits stay as they are. -/
theorem flatMap_spelling_of_isDigit {digits : Text} (hd : ∀ c ∈ digits, c.isDigit = true) :
  digits.flatMap (spelling values.entries) = digits
  := by
  apply flatMap_spelling_eq_self
  intro c hc hn
  have ha := Text.isAlpha_of_isDigit (hd c hc)
  rw [hv.isAlpha c hn (isSolid_of_isDigit (hd c hc))] at ha
  contradiction

/-! ### Tokens of a formula with values -/

section Expand

variable {t : Text} {c : Char} {digits : Text}

include hv in
/-- A number stays as it is. -/
theorem IsLiteral.expand (h : IsLiteral t digits) :
  (operand digits).expand values = [operand digits]
  := by
  obtain ⟨_, _, -, hr, -⟩ := h
  have hd : IsRun digits := ⟨hr.ne_nil, fun d hd => isOperandChar_of_isDigit (hr.all d hd)⟩
  calc (operand digits).expand values
    _ = scan (digits.flatMap (spelling values.entries)) := rfl
    _ = [operand digits] := by rw [flatMap_spelling_of_isDigit hv hr.all, hd.scan_eq]

include hv in
/-- A letter becomes its value, and the digits after it stay there. -/
theorem IsFactor.expand (h : IsFactor t c digits) :
  (operand (c :: digits)).expand values
    = values.sign c ++ [operand (values.magnitude c ++ digits)]
  := by
  obtain ⟨-, -, -, hc, hd, -⟩ := h
  have he : (operand (c :: digits)).expand values
      = scan (spelling values.entries c ++ digits) := by
    rw [Token.expand, operand, List.flatMap_cons, flatMap_spelling_of_isDigit hv hd]
  rw [he, Variables.sign, Variables.magnitude]
  cases hx : values.get? c with
  | none =>
    have hr : IsRun [c] :=
      ⟨List.cons_ne_nil _ _, by simp [isOperandChar, Text.isAlphanum_iff, hc]⟩
    rw [spelling_of_not_mem (Variables.get?_eq_none_iff.mp hx)]
    apply (hr.append hd).scan_eq
  | some x =>
    have hs : spelling values.entries c = Number.text x := by
      have hl : values.entries.lookup c = some x := hx
      rw [spelling, hl]
    have hr : IsRun (Number.magnitude x ++ digits) :=
      (Number.isRun_magnitude x.toModel.unpack).append hd
    rw [hs]
    by_cases hn : Number.IsSigned x
    · simp only [hn, if_true]
      rw [Number.text_of_isSigned hn, List.cons_append, ← hr.scan_eq]
      apply scan_sign .subtraction
    · simp only [hn, if_false]
      rw [Number.text_of_not_isSigned hn]
      apply hr.scan_eq

include hv in
/-- Operators and parentheses stay as they are. -/
theorem expand_of_not_isOperand {u : Token} (hu : u ∈ scan t) (ho : u.isOperand = false) :
  u.expand values = [u]
  := by
  have hs {c : Char} (hc : isSolid c = true) (ha : c.isAlpha = false) :
      [c].flatMap (spelling values.entries) = [c] := by
    rw [List.flatMap_singleton, spelling_of_isSolid hv hc ha]
  rw [Token.expand]
  cases isProper_of_mem_scan u hu with
  | operand => contradiction
  | operator o =>
    have hc : o.token.content.flatMap (spelling values.entries) = [o.sign] := by
      apply hs <;> cases o <;> rfl
    rw [hc, scan_sign, scan_nil]
  | left =>
    have hc : leftParenthesis.content.flatMap (spelling values.entries) = ['('] := hs rfl rfl
    rw [hc, scan_left, scan_nil]
  | right =>
    have hc : rightParenthesis.content.flatMap (spelling values.entries) = [')'] := hs rfl rfl
    rw [hc, scan_right, scan_nil]

end Expand

include hv in
/-- An operand of an expression is a number of the formula, or what stands for a letter of it, with
the digits right after the letter. -/
theorem operand_mem_tokens_iff {content : Text} :
  operand content ∈ tokens values formula
    ↔ IsLiteral (meaningful formula) content
      ∨ ∃ c digits, IsFactor (meaningful formula) c digits
        ∧ content = values.magnitude c ++ digits
  := by
  rw [tokens_eq_flatMap hv, List.mem_flatMap]
  constructor
  · rintro ⟨u, hu, hc⟩
    obtain ho | ⟨digits, rfl, h⟩ | ⟨c, digits, rfl, h⟩ := cases_of_mem_scan_insertProducts hu
    · rw [expand_of_not_isOperand hv hu ho, List.mem_singleton] at hc
      rw [← hc] at ho
      contradiction
    · left
      rw [h.expand hv, List.mem_singleton] at hc
      cases hc
      apply h
    · right
      refine ⟨c, digits, h, ?_⟩
      rw [h.expand hv, List.mem_append] at hc
      obtain hc | hc := hc
      · have ho := Variables.isOperand_of_mem_sign hc
        contradiction
      · cases List.mem_singleton.mp hc
        rfl
  · rintro (h | ⟨c, digits, h, rfl⟩)
    · refine ⟨_, operand_mem_scan_insertProducts_iff.mpr (.inl h), ?_⟩
      rw [h.expand hv]
      apply List.mem_singleton_self
    · refine ⟨_, operand_mem_scan_insertProducts_iff.mpr (.inr ⟨c, digits, rfl, h⟩), ?_⟩
      rw [h.expand hv]
      apply List.mem_append_right _ (List.mem_singleton_self _)

/-- Where the letters of a formula have values without a sign, the operands of the expression are
the numbers of the formula, and the texts of the values with the digits right after the letters. -/
theorem operand_mem_tokens_iff_of_isUnsigned (hf : check formula = .ok ())
    (hn : ∀ c ∈ values.names, isSolid c = true → c.isAlpha = true)
    (hv : ∀ c ∈ letters formula, ∃ x, values.get? c = some x ∧ Number.IsUnsigned x)
    {content : Text} :
  operand content ∈ tokens values formula
    ↔ IsLiteral formula.withoutBlanks content
      ∨ ∃ c digits x, IsFactor formula.withoutBlanks c digits ∧ values.get? c = some x
        ∧ content = Number.text x ++ digits
  := by
  have hp : values.IsPlainFor formula := by
    refine ⟨hn, fun c hc x hx => ?_⟩
    obtain ⟨y, hy, hu⟩ := hv c hc
    rw [hy] at hx
    cases hx
    apply hu.isFinite
  -- the value of a letter is written as it stands in an operand
  have magnitude_eq {c : Char} {digits : Text} (h : IsFactor (meaningful formula) c digits) :
      ∃ x, values.get? c = some x ∧ values.magnitude c = Number.text x := by
    obtain ⟨x, hx, hu⟩ := hv c h.mem_letters
    refine ⟨x, hx, ?_⟩
    rw [Variables.magnitude, hx, Number.text_of_not_isSigned hu.not_isSigned]
  rw [operand_mem_tokens_iff hp, ← meaningful_eq_withoutBlanks hf]
  apply or_congr_right
  constructor
  · rintro ⟨c, digits, h, rfl⟩
    obtain ⟨x, hx, hm⟩ := magnitude_eq h
    exact ⟨c, digits, x, h, hx, by rw [hm]⟩
  · rintro ⟨c, digits, x, h, hx, rfl⟩
    obtain ⟨y, hy, hm⟩ := magnitude_eq h
    rw [hx] at hy
    cases hy
    exact ⟨c, digits, h, by rw [hm]⟩

/-- A value with a digit after it, which make one number. -/
theorem operand_mem_tokens_twoAndAHalf :
  let values := Variables.ofList [('a', 2.5)]
  let formula := "2 a1".toList
  check formula = .ok ()
    ∧ (∀ c ∈ values.names, isSolid c = true → c.isAlpha = true)
    ∧ (∀ c ∈ letters formula, ∃ x, values.get? c = some x ∧ Number.IsUnsigned x)
    ∧ operand "2.51".toList ∈ tokens values formula
  := by
  intro values formula
  have hf : check formula = .ok () := by decide +kernel
  have hn : ∀ c ∈ values.names, isSolid c = true → c.isAlpha = true := by
    have h : values.names = ['a'] := by decide +kernel
    rw [h]
    exact List.forall_mem_singleton.mpr fun _ => rfl
  have hx : values.get? 'a' = some 2.5 ∧ Number.IsUnsigned 2.5 := by decide +kernel
  have hv : ∀ c ∈ letters formula, ∃ x, values.get? c = some x ∧ Number.IsUnsigned x := by
    have h : letters formula = ['a'] := by decide +kernel
    rw [h]
    exact List.forall_mem_singleton.mpr ⟨2.5, hx⟩
  refine ⟨hf, hn, hv, ?_⟩
  apply (operand_mem_tokens_iff_of_isUnsigned hf hn hv).mpr
  right
  refine ⟨'a', ['1'], 2.5, ⟨['2'], [], by decide +kernel, rfl, ?_, by simp⟩, hx.1, ?_⟩
  · exact List.forall_mem_singleton.mpr rfl
  · decide +kernel

end Formula

/-! ### The numbers of operands -/

namespace Token

/-- Whether the text of an operand is a decimal, which the value of the operand is read from. -/
structure IsNumeric (content : Text) : Prop where
  isDecimal : Numeral.IsDecimal content
  read?_eq : Number.read? content = some (operandValue (operand content))
  isNaN : (operandValue (operand content)).isNaN = false
  nonneg : 0 ≤ operandValue (operand content)

/-- Whether the text of an operand is a letter of the formula without a value, with digits after it,
which is no number. -/
structure IsUnbound (values : Variables) (formula content : Text) : Prop where
  exists_eq : ∃ c digits, content = c :: digits ∧ c ∈ letters formula ∧ c ∉ values.names
    ∧ ∀ d ∈ digits, d.isDigit = true
  read?_eq : Number.read? content = none
  isNaN : (operandValue (operand content)).isNaN = true

end Token

theorem Numeral.IsDecimal.isNumeric {content : Text} (h : Numeral.IsDecimal content) :
  IsNumeric content
  := by
  obtain ⟨x, hr, hx⟩ := h.exists_read?
  have hv : operandValue (operand content) = x := by
    rw [operandValue, operand, hr, Option.getD_some]
  constructor
  case isDecimal => apply h
  case read?_eq => rw [hv, hr]
  case isNaN => rw [hv, (Number.isNaN_of_le hx).2]
  case nonneg => rw [hv]; apply hx

/-- A letter without a value makes no number with the digits after it. -/
theorem Formula.IsFactor.isUnbound {values : Variables} {formula : Text} {c : Char} {digits : Text}
    (h : IsFactor (meaningful formula) c digits) (hc : c ∉ values.names) :
  IsUnbound values formula (c :: digits)
  := by
  have hl := h.mem_letters
  obtain ⟨-, -, -, ha, hd, -⟩ := h
  have hr : Number.read? (c :: digits) = none :=
    Number.read?_of_isAlpha ha fun d h => Text.isAlpha_of_isDigit (hd d h)
  constructor
  case exists_eq => exact ⟨c, digits, rfl, hl, hc, hd⟩
  case read?_eq => apply hr
  case isNaN =>
    rw [operandValue, operand, hr, Option.getD_none]
    apply Number.isNaN_nan

/-- An operand of an expression is a decimal, or it starts with a letter that has no value. -/
theorem Formula.isNumeric_or_isUnbound {values : Variables} {formula content : Text}
    (hv : values.IsPlainFor formula) (h : operand content ∈ tokens values formula) :
  IsNumeric content ∨ IsUnbound values formula content
  := by
  obtain ⟨_, _, -, hr, -⟩ | ⟨c, digits, hd, rfl⟩ := (operand_mem_tokens_iff hv).mp h
  · left
    apply (Numeral.IsDecimal.whole hr.ne_nil hr.all).isNumeric
  · rw [Variables.magnitude]
    cases hx : values.get? c with
    | none =>
      right
      apply hd.isUnbound (Variables.get?_eq_none_iff.mp hx)
    | some x =>
      left
      have hf := hv.isFinite c hd.mem_letters x hx
      obtain ⟨-, -, -, -, hdigits, -⟩ := hd
      apply ((Number.isDecimal_magnitude hf).append hdigits).isNumeric

/-! ### Values with a sign -/

/-- Whether two tokens are of one kind and have the same text, unless they are operands. -/
structure Token.SameShape (u w : Token) : Prop where
  kind : u.kind = w.kind
  content : u.isOperand = false → u.content = w.content

/-- Tokens that become at least one token each are as many as before exactly when each of them
becomes one. -/
theorem Token.length_flatMap_eq_iff {f : Token → List Token} {ts : List Token}
    (h : ∀ u ∈ ts, f u ≠ []) :
  (ts.flatMap f).length = ts.length ↔ ∀ u ∈ ts, (f u).length = 1
  := by
  induction ts with
  | nil => simp
  | cons u ts ih =>
    obtain ⟨hu, h⟩ := List.forall_mem_cons.mp h
    have hu := List.length_pos_iff.mpr hu
    have hle : ts.length ≤ (ts.flatMap f).length := by
      have hs := List.length_le_sum_of_one_le (ts.map fun w => (f w).length)
      simp only [List.length_map, List.forall_mem_map] at hs
      rw [List.length_flatMap]
      apply hs fun w hw => List.length_pos_iff.mpr (h w hw)
    have hc : (f u).length + (ts.flatMap f).length = ts.length + 1
        ↔ (f u).length = 1 ∧ (ts.flatMap f).length = ts.length := by
      omega
    rw [List.flatMap_cons, List.length_append, List.length_cons, List.forall_mem_cons, ← ih h, hc]

/-- Tokens that become one token of their shape each. -/
theorem Token.sameShape_flatMap {f : Token → List Token} {ts : List Token}
    (h : ∀ u ∈ ts, ∃ w, f u = [w] ∧ SameShape u w) :
  List.Forall₂ SameShape ts (ts.flatMap f)
  := by
  induction ts with
  | nil => exact .nil
  | cons u ts ih =>
    obtain ⟨w, hw, hs⟩ := h u List.mem_cons_self
    rw [List.flatMap_cons, hw]
    exact .cons hs (ih fun v hv => h v (List.mem_cons_of_mem _ hv))

namespace Formula

variable {values : Variables} {formula : Text}

/-- A token of a formula becomes a token of its shape, after the sign of a value if it has one. -/
theorem exists_expand_eq (hv : values.IsPlainFor formula) {u : Token}
    (hu : u ∈ scan (insertProducts (meaningful formula))) :
  ∃ signs w, u.expand values = signs ++ [w] ∧ SameShape u w
    ∧ (signs = [] ∨ ∃ c ∈ letters formula, signs = values.sign c)
  := by
  obtain ho | ⟨digits, rfl, hd⟩ | ⟨c, digits, rfl, hd⟩ := cases_of_mem_scan_insertProducts hu
  · exact ⟨[], u, expand_of_not_isOperand hv hu ho, ⟨rfl, fun _ => rfl⟩, .inl rfl⟩
  · exact ⟨[], operand digits, hd.expand hv, ⟨rfl, fun _ => rfl⟩, .inl rfl⟩
  · exact ⟨values.sign c, operand (values.magnitude c ++ digits), hd.expand hv,
      ⟨rfl, fun ho => Bool.noConfusion ho⟩, .inr ⟨c, hd.mem_letters, rfl⟩⟩

/-- Values are put in without a change to the shape of the formula exactly when none of them has a
sign. -/
theorem sameShape_iff (hv : values.IsPlainFor formula) :
  List.Forall₂ SameShape (scan (insertProducts (meaningful formula))) (tokens values formula)
    ↔ ∀ c ∈ letters formula, values.sign c = []
  := by
  rw [tokens_eq_flatMap hv]
  constructor
  · intro h c hc
    have hn : ∀ u ∈ scan (insertProducts (meaningful formula)), u.expand values ≠ [] := by
      intro u hu
      obtain ⟨signs, w, he, -⟩ := exists_expand_eq hv hu
      rw [he]
      apply List.append_ne_nil_of_right_ne_nil _ (List.cons_ne_nil _ _)
    obtain ⟨digits, hd⟩ := exists_isFactor hc
    have hu := operand_mem_scan_insertProducts_iff.mpr (.inr ⟨c, digits, rfl, hd⟩)
    have hl := (Token.length_flatMap_eq_iff hn).mp h.length_eq.symm _ hu
    rw [hd.expand hv, List.length_append] at hl
    apply List.length_eq_zero_iff.mp
    simpa using hl
  · intro h
    apply Token.sameShape_flatMap
    intro u hu
    obtain ⟨signs, w, he, hs, rfl | ⟨c, hc, rfl⟩⟩ := exists_expand_eq hv hu
    · exact ⟨w, he, hs⟩
    · rw [h c hc] at he
      exact ⟨w, he, hs⟩

end Formula

end SliderCalculator
