import SliderCalculator.Proofs.Slider.Monotonicity

/-!
# Sliders with whole numbers

If the numbers of a slider are whole and not too large, all differences, products and sums on the
way are exact. Then a value is a whole number of steps above the minimum, unless it is the maximum:
`snap_cases`. What has been snapped is not moved by snapping it again: `snap_snap_eq`.
-/

namespace SliderCalculator.Slider

open Number

/-- Whether the minimum, the maximum and the step of a slider are whole numbers of at most 51 bits,
and the step is not zero. -/
structure IsWhole (s : Slider) (a b c : Nat) : Prop where
  minimum : StandsFor s.minimum a
  maximum : StandsFor s.maximum b
  step : StandsFor s.step c
  maximum_lt : b < 2 ^ 51
  step_pos : 0 < c
  step_lt : c < 2 ^ 51

/-- The numbers of the slider from zero to a hundred are whole. -/
theorem isWhole_percent :
  percent.IsWhole 0 100 1
  := by
  constructor <;> decide +kernel

namespace IsWhole

variable {s : Slider} {a b c k : Nat} {x y : Float}

/-- What lies in the range stands for a number between the ends. -/
theorem contains_iff (h : s.IsWhole a b c) (hx : x.isFinite = true) :
  s.Contains x ↔ a ≤ toRat x ∧ toRat x ≤ b
  := by
  rw [Contains, le_iff_toRat_le h.minimum.isFinite hx, le_iff_toRat_le hx h.maximum.isFinite,
    h.minimum.toRat_eq, h.maximum.toRat_eq]

theorem minimum_le (h : s.IsWhole a b c) :
  a ≤ b
  := by
  have hle := (le_iff_toRat_le h.minimum.isFinite h.maximum.isFinite).mp s.contains_minimum.2
  rw [h.minimum.toRat_eq, h.maximum.toRat_eq] at hle
  exact_mod_cast hle

theorem not_step_le (h : s.IsWhole a b c) :
  ¬ s.step ≤ 0
  := by
  rw [le_zero_iff_toRat_nonpos h.step.isFinite, h.step.toRat_eq, not_le]
  exact_mod_cast h.step_pos

/-! ### Whole numbers of steps -/

/-- Steps that are counted give a sum that is exact. -/
theorem stepped_of_count (h : s.IsWhole a b c) (hk : a + k * c < 2 ^ 53)
    (hx : StandsFor (roundHalfAway ((x - s.minimum) / s.step)) k) :
  StandsFor (s.stepped x) (a + k * c : Nat)
  := by
  have hmul := hx.mul h.step (by omega)
  exact h.minimum.add hmul hk

/-- A whole number of steps above the minimum is found again. -/
theorem stepped_of_standsFor (h : s.IsWhole a b c) (hk : a + k * c ≤ b)
    (hx : StandsFor x (a + k * c : Nat)) :
  StandsFor (s.stepped x) (a + k * c : Nat)
  := by
  have hb := h.maximum_lt
  have hkc : k ≤ k * c := Nat.le_mul_of_pos_right k h.step_pos
  have hsub := hx.sub h.minimum (by omega)
  have hdiv := hsub.div h.step h.step_pos (by omega)
  apply h.stepped_of_count (by omega) (hdiv.roundHalfAway (by omega))

/-- In the range there are not more steps than from one end to the other, rounded up. -/
theorem exists_count (h : s.IsWhole a b c) (hx : s.Contains x) :
  ∃ k ≤ (b - a) / c + 1, StandsFor (roundHalfAway ((x - s.minimum) / s.step)) k
  := by
  have hb := h.maximum_lt
  have hab := h.minimum_le
  have hc : (0 : ℚ) < c := by exact_mod_cast h.step_pos
  have hdiv_le := Nat.div_le_self (b - a) c
  obtain ⟨hl, hu⟩ := (h.contains_iff hx.isFinite).mp hx
  have hle : toRat x - a ≤ (b - a : Nat) := by
    rw [Nat.cast_sub hab]
    linarith
  have hsub := rounds_sub hx.isFinite h.minimum.isFinite
  rw [h.minimum.toRat_eq] at hsub
  obtain ⟨hd, hd0, hdle⟩ := hsub.le_natCast (by linarith) hle (by omega)
  have hdle : toRat (x - s.minimum) / c ≤ ((b - a) / c + 1 : Nat) := by
    have hlt : b - a < ((b - a) / c + 1) * c := by
      rw [Nat.add_one_mul]
      apply Nat.lt_div_mul_add h.step_pos
    rw [div_le_iff₀ hc]
    exact hdle.trans (by exact_mod_cast hlt.le)
  have hdiv := rounds_div hd h.step.isFinite (h.step.toRat_eq ▸ hc.ne')
  rw [h.step.toRat_eq] at hdiv
  obtain ⟨he, he0, hele⟩ := hdiv.le_natCast (by positivity) hdle (by omega)
  apply exists_roundHalfAway he he0 hele (by omega)

/-- What lies in the range is taken to a whole number of steps above the minimum. -/
theorem exists_stepped (h : s.IsWhole a b c) (hx : s.Contains x) :
  ∃ k : Nat, StandsFor (s.stepped x) (a + k * c : Nat)
  := by
  obtain ⟨k, hk, hr⟩ := h.exists_count hx
  have hkc : k * c ≤ b - a + c := by
    calc k * c
      _ ≤ ((b - a) / c + 1) * c := Nat.mul_le_mul_right c hk
      _ = (b - a) / c * c + c := Nat.add_one_mul _ c
      _ ≤ b - a + c := Nat.add_le_add_right (Nat.div_mul_le_self (b - a) c) c
  have hb := h.maximum_lt
  have hc := h.step_lt
  have hab := h.minimum_le
  exact ⟨k, h.stepped_of_count (by omega) hr⟩

/-! ### Values -/

/-- A whole number of steps above the minimum is kept if it is not above the maximum, which it is
cut to otherwise. -/
theorem clamp_of_standsFor (h : s.IsWhole a b c) (hx : StandsFor x (a + k * c : Nat)) :
  clamp s.minimum s.maximum x = if a + k * c ≤ b then x else s.maximum
  := by
  split
  case isTrue hk =>
    apply clamp_of_contains
    rw [h.contains_iff hx.isFinite, hx.toRat_eq]
    constructor
    · exact_mod_cast Nat.le_add_right a (k * c)
    · exact_mod_cast hk
  case isFalse hk =>
    apply clamp_of_not_le (isNaN_of_isFinite hx.isFinite)
    rw [le_iff_toRat_le hx.isFinite h.maximum.isFinite, hx.toRat_eq, h.maximum.toRat_eq]
    exact_mod_cast hk

/-- A number is snapped to the maximum or to a whole number of steps above the minimum. -/
theorem snap_cases (h : s.IsWhole a b c) (hx : x.isNaN = false) :
  s.snap x = s.maximum ∨ ∃ k, a + k * c ≤ b ∧ StandsFor (s.snap x) (a + k * c : Nat)
  := by
  obtain ⟨k, hk⟩ := h.exists_stepped (contains_clamp (s := s) hx)
  rw [snap_of_not_step_le hx h.not_step_le, h.clamp_of_standsFor hk]
  split
  case isTrue hle => exact .inr ⟨k, hle, hk⟩
  case isFalse => exact .inl rfl

/-- A whole number of steps above the minimum stays where it is. -/
theorem snap_of_standsFor (h : s.IsWhole a b c) (hk : a + k * c ≤ b)
    (hx : StandsFor x (a + k * c : Nat)) :
  StandsFor (s.snap x) (a + k * c : Nat)
  := by
  have hs := h.stepped_of_standsFor hk hx
  rw [snap_of_not_step_le (isNaN_of_isFinite hx.isFinite) h.not_step_le, h.clamp_of_standsFor hx,
    if_pos hk, h.clamp_of_standsFor hs, if_pos hk]
  apply hs

/-- The maximum is snapped to itself if any number is snapped to it: that number is not above the
maximum once it is clamped. -/
theorem snap_maximum (h : s.IsWhole a b c) (hx : x.isNaN = false) (hm : s.snap x = s.maximum) :
  StandsFor (s.snap s.maximum) b
  := by
  have hle : s.maximum ≤ s.snap s.maximum := by
    have hc : clamp s.minimum s.maximum x ≤ s.maximum := (contains_clamp hx).2
    have hle := s.snap_le_snap hc
    rw [snap_clamp hx, hm] at hle
    apply hle
  have hf := (s.contains_snap s.maximum).isFinite
  refine ⟨hf, le_antisymm ?_ ?_⟩
  · exact ((h.contains_iff hf).mp (s.contains_snap s.maximum)).2
  · rw [← h.maximum.toRat_eq]
    exact (le_iff_toRat_le h.maximum.isFinite hf).mp hle

/-- What has been snapped is the maximum or a whole number of steps above the minimum, and is
snapped to the same. -/
theorem snap_standsFor (h : s.IsWhole a b c) (x : Float) :
  ∃ n : Nat, (n = b ∨ ∃ k, a + k * c ≤ b ∧ n = a + k * c)
    ∧ StandsFor (s.snap x) n ∧ StandsFor (s.snap (s.snap x)) n
  := by
  have grid {y : Float} {k : Nat} (hk : a + k * c ≤ b) (hy : StandsFor y (a + k * c : Nat)) :
      ∃ n : Nat, (n = b ∨ ∃ k, a + k * c ≤ b ∧ n = a + k * c) ∧ StandsFor y n
        ∧ StandsFor (s.snap y) n :=
    ⟨a + k * c, .inr ⟨k, hk, rfl⟩, hy, h.snap_of_standsFor hk hy⟩
  cases hx : x.isNaN with
  | true =>
    rw [snap, if_pos hx]
    apply grid (k := 0)
    · rw [Nat.zero_mul]
      apply h.minimum_le
    · rw [Nat.zero_mul]
      apply h.minimum
  | false =>
    obtain hm | ⟨k, hk, hy⟩ := h.snap_cases hx
    · refine ⟨b, .inl rfl, hm ▸ h.maximum, ?_⟩
      rw [hm]
      apply h.snap_maximum hx hm
    · apply grid hk hy

/-- What has been snapped is snapped to the same number. -/
theorem snap_snap_beq (h : s.IsWhole a b c) (x : Float) :
  (s.snap (s.snap x) == s.snap x) = true
  := by
  obtain ⟨n, -, hy, hy'⟩ := h.snap_standsFor x
  rw [beq_iff_toRat_eq hy'.isFinite hy.isFinite, hy'.toRat_eq, hy.toRat_eq]

/-- A zero with a plus sign is snapped to itself if the minimum is a zero of either sign. -/
theorem snap_zero (h : s.IsWhole a b c) (hm : s.minimum = 0.0 ∨ s.minimum = -0.0) :
  s.snap 0.0 = 0.0
  := by
  have hs := h.not_step_le
  obtain ⟨m, q, hq, hu⟩ := exists_unpack_of_pos (toRat_step_pos hs)
  have hc : s.Contains 0.0 := by
    apply contains_zero
    rcases hm with hm | hm <;>
    · rw [hm]
      decide +kernel
  have hsub : 0.0 - s.minimum = 0.0 := by
    rcases hm with hm | hm <;>
    · rw [hm]
      decide +kernel
  have hdiv : 0.0 / s.step = 0.0 := by
    change Float.ofModel (.pack (.div .binary64 (.zero .positive) s.step.toModel.unpack)) = 0.0
    rw [hu]
    rfl
  have hround : roundHalfAway 0.0 = 0.0 := by decide +kernel
  have hmul : 0.0 * s.step = 0.0 := by
    change Float.ofModel (.pack (.mul .binary64 (.zero .positive) s.step.toModel.unpack)) = 0.0
    rw [hu]
    rfl
  have hadd : s.minimum + 0.0 = 0.0 := by
    rcases hm with hm | hm <;>
    · rw [hm]
      decide +kernel
  rw [snap_of_not_step_le (by decide +kernel) hs, clamp_of_contains hc, stepped, hsub, hdiv, hround,
    hmul, hadd, clamp_of_contains hc]

/-- What has been snapped is snapped to itself, unless it is the negative zero. -/
theorem snap_snap_eq (h : s.IsWhole a b c) (hx : s.snap x ≠ -0.0) :
  s.snap (s.snap x) = s.snap x
  := by
  obtain ⟨n, -, hy, hy'⟩ := h.snap_standsFor x
  rcases Nat.eq_zero_or_pos n with rfl | hn
  · rw [Nat.cast_zero] at hy
    have hz := (eq_zero_of_toRat_eq hy.isFinite hy.toRat_eq).resolve_right hx
    have hle : s.minimum ≤ -0.0 := by
      apply le_trans (s.contains_snap x).1
      rw [hz]
      decide +kernel
    rw [hz]
    apply h.snap_zero (eq_zero_of_le hle s.minimum_nonneg)
  · apply eq_of_toRat_eq hy'.isFinite hy.isFinite
    · rw [hy'.toRat_eq, hy.toRat_eq]
    · rw [hy'.toRat_eq]
      exact_mod_cast hn.ne'

end IsWhole

end SliderCalculator.Slider
