import SliderCalculator.Proofs.Calculation.Operands
import SliderCalculator.Proofs.Calculation.Tree
import SliderCalculator.Proofs.Session.History

/-!
# Operands in sessions

The values of a session are finite and not below zero, and all letters of its formula have one, so
every operand is read as a number: `isNumeric_of_mem_tokens_after`. A value is put in without a sign
unless it is the negative zero, whose minus sign is read as an operator. It passes for a number that
is not below zero, so a slider without gaps keeps it: `sameShape_after_iff`.
-/

namespace SliderCalculator

open Formula Token

/-- The value that steps give to a name last is given by one of them. -/
theorem Step.exists_given_of_lastGiven? {name : Char} {ts : List Step} {x : Float}
    (h : lastGiven? name ts = some x) :
  ∃ t ∈ ts, t.given? name = some x
  := List.mem_filterMap.mp (List.mem_of_getLast? h)

namespace Session

variable {slider : Slider} {presets : Variables} {s : Session} {ts : List Step} {c : Char}
  {x : Float}

/-! ### Values of a session -/

/-- A session begins with presets, if only with none. -/
theorem IsInitial.exists_eq (h : s.IsInitial) :
  ∃ slider presets, s = Session.withVariables slider presets
  := by
  cases h with
  | new slider => exact ⟨slider, Variables.empty, rfl⟩
  | withVariables slider presets => exact ⟨slider, presets, rfl⟩

/-- A value is the zero at which a variable starts, or it is snapped from a preset or from a value
that a step gives. -/
theorem eq_zero_or_snap (h : ((withVariables slider presets).after ts).values.get? c = some x) :
  x = 0.0 ∨ ∃ y, x = slider.snap y ∧ (presets.get? c = some y ∨ ∃ t ∈ ts, t.given? c = some y)
  := by
  obtain ⟨hn, hk⟩ | ⟨vs, hvs⟩ := keep_or_entersBefore (Variables.mem_names_of_get? h)
  · right
    obtain ⟨y, hy⟩ := exists_preset_of_mem hn
    rw [get?_after_of_preset hy hk] at h
    cases h
    cases hg : Step.lastGiven? c ts with
    | none => exact ⟨y, rfl, .inl hy⟩
    | some z => exact ⟨z, rfl, .inr (Step.exists_given_of_lastGiven? hg)⟩
  · rw [get?_after_of_entersBefore hvs] at h
    cases h
    cases hg : Step.lastGiven? c vs with
    | none => exact .inl rfl
    | some z =>
      right
      obtain ⟨t, ht, hz⟩ := Step.exists_given_of_lastGiven? hg
      obtain ⟨us, u, -, rfl, -⟩ := hvs
      refine ⟨z, rfl, .inr ⟨t, ?_, hz⟩⟩
      apply List.mem_append_right _ (List.mem_cons_of_mem _ ht)

/-- The values of a session are finite. -/
theorem isFinite_of_get?_after
    (h : ((withVariables slider presets).after ts).values.get? c = some x) :
  x.isFinite = true
  := by
  obtain rfl | ⟨y, rfl, -⟩ := eq_zero_or_snap h
  · decide +kernel
  · apply (slider.contains_snap y).isFinite

/-- They are not below zero. -/
theorem zero_le_of_get?_after
    (h : ((withVariables slider presets).after ts).values.get? c = some x) :
  0 ≤ x
  := by
  obtain rfl | ⟨y, rfl, -⟩ := eq_zero_or_snap h
  · decide +kernel
  · apply (slider.contains_snap y).zero_le

/-- The negative zero comes from the range of the slider, or it is given to a slider without
gaps. -/
theorem exists_negativeZero
    (h : ((withVariables slider presets).after ts).values.get? c = some (-0.0)) :
  slider.minimum = -0.0 ∨ slider.maximum = -0.0
    ∨ slider.step ≤ 0
      ∧ (presets.get? c = some (-0.0) ∨ ∃ t ∈ ts, t.given? c = some (-0.0))
  := by
  obtain h0 | ⟨y, hy, hg⟩ := eq_zero_or_snap h
  · exact absurd h0 (by decide +kernel)
  · obtain hm | hm | ⟨hs, rfl⟩ := Slider.snap_eq_negativeZero hy.symm
    · exact .inl hm
    · exact .inr (.inl hm)
    · exact .inr (.inr ⟨hs, hg⟩)

/-! ### The variables of a formula -/

/-- Whether the variables are the letters of the formula, unless the formula is empty. -/
def NamesLetters (s : Session) : Prop :=
  s.formula = [] ∨ s.values.names = letters s.formula

theorem NamesLetters.step (h : s.NamesLetters) (t : Step) :
  (s.step t).1.NamesLetters
  := by
  rw [NamesLetters]
  cases ht : t.typed? with
  | none =>
    rw [formula_step ht, names_step ht]
    apply h
  | some f =>
    right
    rw [formula_step_of_typed? ht, values_step_of_typed? ht, Variables.names_detect]

theorem namesLetters_after (slider : Slider) (presets : Variables) (ts : List Step) :
  ((withVariables slider presets).after ts).NamesLetters
  := by
  induction ts using List.reverseRecOn with
  | nil => exact .inl rfl
  | append_singleton ts t ih =>
    rw [after_concat]
    apply ih.step

/-- The formula of a session is empty, or its letters are the variables and have finite values. -/
theorem formula_eq_nil_or_isPlainFor (slider : Slider) (presets : Variables) (ts : List Step) :
  let s := (withVariables slider presets).after ts
  s.formula = [] ∨ s.values.names = letters s.formula ∧ s.values.IsPlainFor s.formula
  := by
  intro s
  apply (namesLetters_after slider presets ts).imp_right
  intro hn
  refine ⟨hn, ?_, fun c _ x hx => isFinite_of_get?_after hx⟩
  intro c hc _
  rw [hn] at hc
  apply (mem_letters.mp hc).2

/-! ### Numbers -/

/-- Every operand of a session is read as a number. -/
theorem isNumeric_of_mem_tokens_after {content : Text}
    (h : operand content ∈ tokens ((withVariables slider presets).after ts).values
      ((withVariables slider presets).after ts).formula) :
  IsNumeric content
  := by
  obtain hf | ⟨hn, hv⟩ := formula_eq_nil_or_isPlainFor slider presets ts
  · rw [hf, tokens_of_isAllBlank rfl] at h
    contradiction
  · apply (isNumeric_or_isUnbound hv h).resolve_right
    rintro ⟨⟨c, digits, -, hc, hu, -⟩, -, -⟩
    rw [hn] at hu
    contradiction

/-- When names are letters and values finite, every operand of an expression is a decimal, which
denotes a number not below zero, or it starts with a letter without a value and denotes none. In a
session it is always a number. -/
theorem isNumeric_or_isUnbound_and_isNumeric :
  (∀ (values : Variables) (formula : Text), values.IsPlain →
      ∀ content, operand content ∈ tokens values formula →
        IsNumeric content ∨ IsUnbound values formula content)
    ∧ ∀ s : Session, s.IsInitial → ∀ (ts : List Step) (content : Text),
      operand content ∈ tokens (s.after ts).values (s.after ts).formula → IsNumeric content
  := by
  constructor
  · intro values formula hv content h
    apply isNumeric_or_isUnbound (hv.isPlainFor formula) h
  · intro s hs ts content h
    obtain ⟨slider, presets, rfl⟩ := hs.exists_eq
    apply isNumeric_of_mem_tokens_after h

/-- A value with a digit after it and a letter without a value, and the value at which a letter
starts in a session. -/
theorem isNumeric_twoAndAHalf :
  let values := Variables.ofList [('a', 2.5)]
  let formula := "a1+b2".toList
  let s := new .percent
  let ts : List Step := [.formula ['c']]
  values.IsPlain
    ∧ (operand "2.51".toList ∈ tokens values formula ∧ IsNumeric "2.51".toList)
    ∧ (operand "b2".toList ∈ tokens values formula ∧ IsUnbound values formula "b2".toList)
    ∧ (s.IsInitial ∧ operand ['0'] ∈ tokens (s.after ts).values (s.after ts).formula
      ∧ IsNumeric ['0'])
  := by
  intro values formula s ts
  have hp : values.IsPlain := by
    have he : values.entries = [('a', 2.5)] := by decide +kernel
    constructor
    case isAlpha =>
      rw [Variables.names, he]
      exact List.forall_mem_singleton.mpr rfl
    case isFinite =>
      rw [he, List.forall_mem_singleton]
      decide +kernel
  have ha : operand "2.51".toList ∈ tokens values formula := by decide +kernel
  have hb : operand "b2".toList ∈ tokens values formula := by decide +kernel
  have hc : operand ['0'] ∈ tokens (s.after ts).values (s.after ts).formula := by decide +kernel
  refine ⟨hp, ⟨ha, ?_⟩, ⟨hb, ?_⟩, .new _, hc, ?_⟩
  · apply (isNumeric_or_isUnbound_and_isNumeric.1 values formula hp _ ha).resolve_right
    intro hu
    have hr := hu.read?_eq
    revert hr
    decide +kernel
  · apply (isNumeric_or_isUnbound_and_isNumeric.1 values formula hp _ hb).resolve_left
    intro hu
    have hn := hu.isNaN
    revert hn
    decide +kernel
  · apply isNumeric_or_isUnbound_and_isNumeric.2 s (.new _) ts _ hc

/-! ### The negative zero -/

/-- The values of a session are put in without a change to the shape of the formula exactly when
none of them is the negative zero, which comes from the range of the slider, or is given to a slider
without gaps. -/
theorem sameShape_after_iff (slider : Slider) (presets : Variables) (ts : List Step) :
  let s := (withVariables slider presets).after ts
  (List.Forall₂ SameShape (Token.normalize (insertProducts (meaningful s.formula)))
        (tokens s.values s.formula)
      ↔ ∀ c ∈ letters s.formula, s.values.get? c ≠ some (-0.0))
    ∧ ∀ c, s.values.get? c = some (-0.0) →
      slider.minimum = -0.0 ∨ slider.maximum = -0.0
        ∨ slider.step ≤ 0
          ∧ (presets.get? c = some (-0.0) ∨ ∃ t ∈ ts, t.given? c = some (-0.0))
  := by
  intro s
  refine ⟨?_, fun c => exists_negativeZero⟩
  -- among the values, which are not below zero, those with a sign are the negative zeros
  have hsign : ∀ c, s.values.sign c = [] ↔ s.values.get? c ≠ some (-0.0) := by
    intro c
    rw [Variables.sign_eq_nil_iff]
    constructor
    · intro h hx
      apply h _ hx Number.isSigned_negativeZero
    · intro h x hx hs
      have h0 := Number.eq_negativeZero (zero_le_of_get?_after hx) hs
      rw [← h0] at h
      apply h hx
  rw [normalize_insertProducts]
  obtain hf | ⟨hn, hv⟩ := formula_eq_nil_or_isPlainFor slider presets ts
  · have hf : s.formula = [] := hf
    rw [hf, tokens_of_isAllBlank rfl, insertProducts_eq]
    simp [meaningful, spellProducts, scan_nil, letters]
  · apply (sameShape_iff hv).trans
    apply forall₂_congr
    exact fun c _ => hsign c

/-- A slider without gaps. -/
def withoutGaps : Slider where
  minimum := 0.0
  maximum := 10.0
  step := 0.0
  isFinite := by decide +kernel
  minimum_nonneg := by decide +kernel
  minimum_le_maximum := by decide +kernel
  step_nonneg := by decide +kernel

/-- The negative zero is assigned, and its minus sign is read as an operator. -/
theorem not_sameShape_negativeZero :
  let s := (withVariables withoutGaps Variables.empty).after
    [.formula "1+a".toList, .assign "a = -0".toList]
  s.values.get? 'a' = some (-0.0)
    ∧ ¬ List.Forall₂ SameShape (Token.normalize (insertProducts (meaningful s.formula)))
      (tokens s.values s.formula)
    ∧ calculate s.formula s.values = .error .notSingleValue
  := by
  intro s
  have ha : s.values.get? 'a' = some (-0.0) := by decide +kernel
  have hl : 'a' ∈ letters s.formula := by decide +kernel
  refine ⟨ha, ?_, by decide +kernel⟩
  intro h
  have hiff := (sameShape_after_iff withoutGaps Variables.empty
    [.formula "1+a".toList, .assign "a = -0".toList]).1
  apply hiff.mp h 'a' hl ha

end Session

end SliderCalculator
