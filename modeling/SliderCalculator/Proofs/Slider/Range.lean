import SliderCalculator.Proofs.Number.Sign
import SliderCalculator.Slider

/-!
# The range of a slider

Whatever float a slider snaps, infinite or not a number, the value lies in its range:
`contains_snap`. The differences, quotients and products on the way may be infinite, but they
are numbers, and a number is clamped into the range. So no value is below zero, but one may be the
negative zero, which passes for a number that is not below zero: `snap_eq_negativeZero`.
-/

namespace SliderCalculator.Slider

open Number

/-- Whether a float lies in the range of a slider. -/
def Contains (s : Slider) (x : Float) : Prop :=
  s.minimum ≤ x ∧ x ≤ s.maximum

instance (s : Slider) (x : Float) : Decidable (s.Contains x) :=
  inferInstanceAs (Decidable (_ ∧ _))

variable (s : Slider)

/-- The numbers of a slider are finite. -/
theorem isFinite_numbers :
  s.minimum.isFinite = true ∧ s.maximum.isFinite = true ∧ s.step.isFinite = true
  := by
  have h := s.isFinite
  simp only [Bool.and_eq_true, and_assoc] at h
  apply h

theorem isNaN_minimum :
  s.minimum.isNaN = false
  := isNaN_of_isFinite s.isFinite_numbers.1

theorem isNaN_maximum :
  s.maximum.isNaN = false
  := isNaN_of_isFinite s.isFinite_numbers.2.1

/-- The minimum lies in the range. -/
theorem contains_minimum :
  s.Contains s.minimum
  := by
  constructor
  · apply le_self s.isNaN_minimum
  · apply (le_iff_not_lt s.isNaN_minimum s.isNaN_maximum).mpr s.minimum_le_maximum

/-- The maximum lies in the range. -/
theorem contains_maximum :
  s.Contains s.maximum
  := by
  constructor
  · apply s.contains_minimum.2
  · apply le_self s.isNaN_maximum

variable {s} {x : Float}

/-- Zero lies in the range when the minimum is not above it. -/
theorem contains_zero (h : ¬ 0.0 < s.minimum) :
  s.Contains 0.0
  := by
  have hz : (0.0 : Float).isNaN = false := by decide +kernel
  have hl := s.isNaN_minimum
  have hn : ¬ s.minimum < 0.0 := s.minimum_nonneg
  constructor
  · apply (le_iff_not_lt hl hz).mpr h
  · apply le_trans _ s.contains_minimum.2
    apply (le_iff_not_lt hz hl).mpr hn

/-- What lies in the range is finite. -/
theorem Contains.isFinite (h : s.Contains x) :
  x.isFinite = true
  := isFinite_of_le_of_le s.isFinite_numbers.1 s.isFinite_numbers.2.1 h.1 h.2

/-- A number is clamped into the range. -/
theorem contains_clamp (hx : x.isNaN = false) :
  s.Contains (clamp s.minimum s.maximum x)
  := by
  have upper : ∀ y, s.minimum ≤ y → y.isNaN = false →
      s.Contains (if s.maximum < y then s.maximum else y) := by
    intro y hy hn
    split
    case isTrue => apply s.contains_maximum
    case isFalse h => exact ⟨hy, (le_iff_not_lt hn s.isNaN_maximum).mpr h⟩
  rw [clamp]
  apply upper
  · split
    case isTrue => apply s.contains_minimum.1
    case isFalse h => apply (le_iff_not_lt s.isNaN_minimum hx).mpr h
  · split
    · apply s.isNaN_minimum
    · apply hx

/-- The step of a slider with gaps is not zero. -/
theorem exists_unpack_step (h : ¬ s.step ≤ 0) :
  ∃ sign m q hm, s.step.toModel.unpack = .finite sign m q hm
  := by
  have hf : s.step.toModel.unpack.isFinite = true := s.isFinite_numbers.2.2
  cases hu : s.step.toModel.unpack with
  | notANumber | infinity =>
    rw [hu] at hf
    contradiction
  | zero sign =>
    rw [le_iff_compare, hu] at h
    exact absurd rfl h
  | finite sign m q hm => exact ⟨sign, m, q, hm, rfl⟩

/-- A whole number of steps above the minimum is a number, however many steps they are. -/
theorem isNaN_steps (h : ¬ s.step ≤ 0) (hx : x.isFinite = true) :
  (s.minimum + roundHalfAway ((x - s.minimum) / s.step) * s.step).isNaN = false
  := by
  obtain ⟨sign, m, q, hm, hs⟩ := exists_unpack_step h
  have hsub : (x - s.minimum).isNaN = false := by
    apply (isNaN_ofModel_pack _).trans
    apply isNaN_sub hx s.isFinite_numbers.1
  have hdiv : ((x - s.minimum) / s.step).isNaN = false := by
    apply (isNaN_ofModel_pack _).trans
    rw [hs]
    apply isNaN_div hsub
  have hmul : (roundHalfAway ((x - s.minimum) / s.step) * s.step).isNaN = false := by
    apply (isNaN_ofModel_pack _).trans
    rw [hs]
    apply isNaN_mul (isNaN_roundHalfAway hdiv)
  apply (isNaN_ofModel_pack _).trans
  apply isNaN_add s.isFinite_numbers.1 hmul

/-- Every float is snapped into the range. -/
theorem contains_snap (s : Slider) (x : Float) :
  s.Contains (s.snap x)
  := by
  rw [snap]
  split
  case isTrue => apply s.contains_minimum
  case isFalse hx =>
    have hc : s.Contains (clamp s.minimum s.maximum x) := contains_clamp (eq_false_of_ne_true hx)
    split
    case isTrue => apply hc
    case isFalse h => apply contains_clamp (isNaN_steps h hc.isFinite)

/-! ### The negative zero -/

/-- What lies in the range is not below zero. -/
theorem Contains.zero_le (h : s.Contains x) :
  0 ≤ x
  := by
  have hm : 0 ≤ s.minimum := (zero_le_iff s.isFinite_numbers.1).mpr s.minimum_nonneg
  apply le_trans hm h.1

/-- A number is clamped to an end of the range, or it is kept. -/
theorem clamp_cases (lower upper x : Float) :
  clamp lower upper x = lower ∨ clamp lower upper x = upper ∨ clamp lower upper x = x
  := by
  have upper_cases : ∀ y, (if upper < y then upper else y) = upper
      ∨ (if upper < y then upper else y) = y := by
    intro y
    split
    · exact .inl rfl
    · exact .inr rfl
  simp only [clamp]
  split
  · exact (upper_cases lower).elim (fun h => .inr (.inl h)) .inl
  · exact .inr (upper_cases x)

/-- The negative zero is snapped to when it is an end of the range, or when it is snapped itself by
a slider without gaps. -/
theorem snap_eq_negativeZero (h : s.snap x = -0.0) :
  s.minimum = -0.0 ∨ s.maximum = -0.0 ∨ s.step ≤ 0 ∧ x = -0.0
  := by
  have hc := s.contains_snap x
  rw [h] at hc
  rw [snap] at h
  split at h
  case isTrue => exact .inl h
  case isFalse =>
    split at h
    case isTrue hs =>
      obtain he | he | he := clamp_cases s.minimum s.maximum x
      · exact .inl (he.symm.trans h)
      · exact .inr (.inl (he.symm.trans h))
      · exact .inr (.inr ⟨hs, he.symm.trans h⟩)
    case isFalse =>
      have hsum := clamp_cases s.minimum s.maximum
        (s.minimum + roundHalfAway ((clamp s.minimum s.maximum x - s.minimum) / s.step) * s.step)
      obtain he | he | he := hsum
      · exact .inl (he.symm.trans h)
      · exact .inr (.inl (he.symm.trans h))
      · -- the minimum is a zero, and a sum with the other zero is not negative
        obtain hz | hz := eq_zero_of_le hc.1 s.minimum_nonneg
        · rw [he, hz] at h
          exact absurd h (zero_add_ne _)
        · exact .inl hz

end SliderCalculator.Slider
