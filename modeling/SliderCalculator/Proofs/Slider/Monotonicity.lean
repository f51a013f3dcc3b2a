import SliderCalculator.Proofs.Number.Whole
import SliderCalculator.Proofs.Slider.Range

/-!
# Snapping is monotone

Snapping keeps the order of numbers, and takes everything into the range: `snap_ordered`. Each of
the operations on the way rounds a monotone function of the numbers that floats stand for, and keeps
the infinities.
-/

namespace SliderCalculator.Slider

open Number

variable {s : Slider} {x y : Float}

/-! ### Clamping -/

/-- Clamping cuts off places. -/
theorem place_clamp {lower upper : Float} (hl : lower.isNaN = false) (hu : upper.isNaN = false)
    (hx : x.isNaN = false) :
  place (clamp lower upper x).toModel.unpack
    = min (place upper.toModel.unpack) (max (place lower.toModel.unpack) (place x.toModel.unpack))
  := by
  have cut {y : Float} (hy : y.isNaN = false) :
      place (if upper < y then upper else y).toModel.unpack
        = min (place upper.toModel.unpack) (place y.toModel.unpack) := by
    split
    case isTrue h => rw [min_eq_left ((lt_iff_place_lt hu hy).mp h).le]
    case isFalse h => rw [min_eq_right (not_lt.mp (mt (lt_iff_place_lt hu hy).mpr h))]
  rw [clamp]
  split
  case isTrue h => rw [cut hl, max_eq_left ((lt_iff_place_lt hx hl).mp h).le]
  case isFalse h => rw [cut hx, max_eq_right (not_lt.mp (mt (lt_iff_place_lt hx hl).mpr h))]

/-- Clamping into the range is monotone. -/
theorem clamp_le_clamp (h : x ≤ y) :
  clamp s.minimum s.maximum x ≤ clamp s.minimum s.maximum y
  := by
  obtain ⟨hx, hy⟩ := isNaN_of_le h
  have isNaN {z : Float} (hz : z.isNaN = false) :=
    isNaN_of_isFinite (contains_clamp (s := s) hz).isFinite
  rw [le_iff_place_le (isNaN hx) (isNaN hy), place_clamp s.isNaN_minimum s.isNaN_maximum hx,
    place_clamp s.isNaN_minimum s.isNaN_maximum hy]
  rw [le_iff_place_le hx hy] at h
  gcongr

/-- What lies in the range is not changed by clamping. -/
theorem clamp_of_contains (h : s.Contains x) :
  clamp s.minimum s.maximum x = x
  := by
  have hx := isNaN_of_isFinite h.isFinite
  have hl := (le_iff_not_lt s.isNaN_minimum hx).mp h.1
  have hu := (le_iff_not_lt hx s.isNaN_maximum).mp h.2
  rw [clamp, if_neg hl, if_neg hu]

/-- What lies above the range is clamped to the maximum. -/
theorem clamp_of_not_le (hx : x.isNaN = false) (h : ¬ x ≤ s.maximum) :
  clamp s.minimum s.maximum x = s.maximum
  := by
  rw [le_iff_not_lt hx s.isNaN_maximum, not_not] at h
  have hle : s.minimum ≤ x := by
    apply le_trans s.contains_minimum.2
    rw [le_iff_place_le s.isNaN_maximum hx]
    exact ((lt_iff_place_lt s.isNaN_maximum hx).mp h).le
  rw [clamp, if_neg ((le_iff_not_lt s.isNaN_minimum hx).mp hle), if_pos h]

/-! ### Whole numbers of steps -/

/-- The whole number of steps above the minimum that is nearest to a float. -/
def stepped (s : Slider) (x : Float) : Float :=
  s.minimum + roundHalfAway ((x - s.minimum) / s.step) * s.step

theorem snap_of_step_le (hx : x.isNaN = false) (hs : s.step ≤ 0) :
  s.snap x = clamp s.minimum s.maximum x
  := by
  rw [snap, if_neg (ne_true_of_eq_false hx), if_pos hs]

theorem snap_of_not_step_le (hx : x.isNaN = false) (hs : ¬ s.step ≤ 0) :
  s.snap x = clamp s.minimum s.maximum (s.stepped (clamp s.minimum s.maximum x))
  := by
  rw [snap, if_neg (ne_true_of_eq_false hx), if_neg hs, stepped]

/-- Clamping first does not matter. -/
theorem snap_clamp (hx : x.isNaN = false) :
  s.snap (clamp s.minimum s.maximum x) = s.snap x
  := by
  have hc : s.Contains (clamp s.minimum s.maximum x) := contains_clamp hx
  have hn := isNaN_of_isFinite hc.isFinite
  by_cases hs : s.step ≤ 0
  · rw [snap_of_step_le hn hs, snap_of_step_le hx hs, clamp_of_contains hc]
  · rw [snap_of_not_step_le hn hs, snap_of_not_step_le hx hs, clamp_of_contains hc]

/-- The step of a slider with gaps stands for a positive number. -/
theorem toRat_step_pos (hs : ¬ s.step ≤ 0) :
  0 < toRat s.step
  := by
  rw [le_zero_iff_toRat_nonpos s.isFinite_numbers.2.2, not_le] at hs
  apply hs

/-- Counting steps is monotone. -/
theorem stepped_le_stepped (hs : ¬ s.step ≤ 0) (h : x ≤ y) :
  s.stepped x ≤ s.stepped y
  := by
  obtain ⟨hmin, -, hstep⟩ := s.isFinite_numbers
  have hpos := toRat_step_pos hs
  have hsub := (approximates_sub hmin).le (fun v w h => sub_le_sub_right h _) h
  have hdiv := (approximates_div hstep hpos).le (fun v w h => div_le_div_of_nonneg_right h hpos.le)
    hsub
  have hround := approximates_roundHalfAway.le
    (fun v w h => Int.cast_le.mpr (nearestInteger_le_nearestInteger h)) hdiv
  have hmul := (approximates_mul hstep hpos).le (fun v w h => mul_le_mul_of_nonneg_right h hpos.le)
    hround
  exact (approximates_add hmin).le (fun v w h => add_le_add_right h _) hmul

/-- Snapping is monotone. -/
theorem snap_le_snap (s : Slider) (h : x ≤ y) :
  s.snap x ≤ s.snap y
  := by
  obtain ⟨hx, hy⟩ := isNaN_of_le h
  have hc := clamp_le_clamp (s := s) h
  by_cases hs : s.step ≤ 0
  · rw [snap_of_step_le hx hs, snap_of_step_le hy hs]
    apply hc
  · rw [snap_of_not_step_le hx hs, snap_of_not_step_le hy hs]
    apply clamp_le_clamp
    apply stepped_le_stepped hs hc

/-- Every float is snapped to a number of the range, and numbers keep their order. -/
theorem snap_ordered (s : Slider) :
  (∀ x, s.Contains (s.snap x) ∧ (s.snap x).isNaN = false) ∧ ∀ x y, x ≤ y → s.snap x ≤ s.snap y
  := by
  constructor
  · intro x
    have hc := s.contains_snap x
    exact ⟨hc, isNaN_of_isFinite hc.isFinite⟩
  · intro x y h
    apply s.snap_le_snap h

/-- A slider with so small a step that there are infinitely many steps to its maximum. -/
def fine : Slider where
  minimum := 0.1
  maximum := 1e300
  step := 1e-300
  isFinite := by decide +kernel
  minimum_nonneg := by decide +kernel
  minimum_le_maximum := by decide +kernel
  step_nonneg := by decide +kernel

/-- Two numbers of steps, of which the greater one is infinite. -/
theorem snap_ordered_fine :
  (1e7 : Float) ≤ 1e299 ∧ (roundHalfAway ((1e7 - fine.minimum) / fine.step)).isFinite = true
    ∧ (roundHalfAway ((1e299 - fine.minimum) / fine.step)).isFinite = false
    ∧ fine.Contains (fine.snap 1e299) ∧ fine.snap 1e7 ≤ fine.snap 1e299
  := by
  have h : (1e7 : Float) ≤ 1e299 := by decide +kernel
  refine ⟨h, ?_, ?_, (fine.snap_ordered.1 1e299).1, fine.snap_ordered.2 _ _ h⟩
  · decide +kernel
  · decide +kernel

end SliderCalculator.Slider
