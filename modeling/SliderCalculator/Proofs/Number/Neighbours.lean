import Mathlib.Data.Int.Log
import Mathlib.Data.Rat.Floor
import SliderCalculator.Proofs.Number.Scientific

/-!
# Neighbours of floats

The ends of the rounding interval of a float lie halfway to its neighbours, and no other floats are
nearer: `IsInInterval.abs_sub_le`. The rounding intervals cover all numbers that are not negative:
`exists_isInInterval`. Here floats may be of any size.
-/

namespace SliderCalculator.Number

open RoundingInterval

variable {m m' : Nat} {q q' : Int} {v : ℚ}

/-! ### Distances -/

section Distance

variable {x y : ℚ}

theorem abs_sub_le_abs_sub_iff :
  |v - x| ≤ |v - y| ↔ 0 ≤ (x - y) * (2 * v - (x + y))
  := by
  have h : (v - y) ^ 2 - (v - x) ^ 2 = (x - y) * (2 * v - (x + y)) := by ring
  rw [← sq_le_sq, ← sub_nonneg, h]

/-- What is nearer to the greater of two numbers is above the middle between them. -/
theorem abs_sub_le_iff_of_lt (h : y < x) :
  |v - x| ≤ |v - y| ↔ x + y ≤ 2 * v
  := by
  rw [abs_sub_le_abs_sub_iff, mul_nonneg_iff_of_pos_left (sub_pos.mpr h), sub_nonneg]

/-- What is nearer to the less of two numbers is below the middle. -/
theorem abs_sub_le_iff_of_gt (h : x < y) :
  |v - x| ≤ |v - y| ↔ 2 * v ≤ x + y
  := by
  rw [abs_sub_le_abs_sub_iff, ← neg_mul_neg, mul_nonneg_iff_of_pos_left (by linarith), neg_sub,
    sub_nonneg]

/-- What is as near to one as to the other is in the middle. -/
theorem abs_sub_eq_iff (h : x ≠ y) :
  |v - y| = |v - x| ↔ 2 * v = x + y
  := by
  rw [le_antisymm_iff]
  obtain h | h := lt_or_gt_of_ne h
  · rw [abs_sub_le_iff_of_gt h, abs_sub_le_iff_of_lt h]
    constructor
    · intro h
      linarith
    · intro h
      constructor <;> linarith
  · rw [abs_sub_le_iff_of_gt h, abs_sub_le_iff_of_lt h]
    constructor
    · intro h
      linarith
    · intro h
      constructor <;> linarith

end Distance

/-! ### Neighbours -/

/-- A float that has no fewer bits than those with an exponent is a multiple of their last place. -/
theorem exists_mul_zpow {r : Int} (h : IsAligned m q)
    (hle : r = -1074 ∨ (2 ^ 52 * 2 ^ r : ℚ) ≤ m * 2 ^ q) :
  ∃ k : Nat, (m * 2 ^ q : ℚ) = k * 2 ^ r
  := by
  have hq := h.le_exponent
  rcases le_or_gt r q with hrq | hrq
  · use m * 2 ^ (q - r).toNat
    push_cast
    rw [mul_assoc, two_pow_mul]
    omega
  · refine absurd (hle.resolve_left (by omega)) (not_le_of_gt ?_)
    have hm : (m : ℚ) < 2 ^ 53 := by exact_mod_cast h.lt
    calc (m * 2 ^ q : ℚ)
      _ < 2 ^ 53 * 2 ^ q := by
        apply mul_lt_mul_of_pos_right hm
        positivity
      _ = 2 ^ (q + 53) := two_pow_mul (by omega)
      _ ≤ 2 ^ (r + 52) := zpow_le_zpow_right₀ one_le_two (by omega)
      _ = 2 ^ 52 * 2 ^ r := (two_pow_mul (by omega)).symm

/-- A last place in halves. -/
theorem two_zpow_halves (q : Int) :
  (2 : ℚ) ^ q = 2 * 2 ^ (q - 1)
  := by
  have h := two_zpow_mul (a := 1) (b := q - 1) (c := q) (by omega)
  rw [← h, zpow_one]

/-- A last place in quarters. -/
theorem two_zpow_quarters (q : Int) :
  (2 : ℚ) ^ q = 4 * 2 ^ (q - 2)
  := by
  have hq : q - 1 - 1 = q - 2 := by omega
  rw [two_zpow_halves q, two_zpow_halves (q - 1), hq]
  ring

/-- A float that is below a multiple of a last place is below it by a last place, if floats of its
size have all bits above that place. -/
theorem add_zpow_le_of_lt {r : Int} {n : Nat} (h : IsAligned m q) (hn : r = -1074 ∨ 2 ^ 52 < n)
    (hlt : (m * 2 ^ q : ℚ) < n * 2 ^ r) :
  (m * 2 ^ q + 2 ^ r : ℚ) ≤ n * 2 ^ r
  := by
  have hp : (0 : ℚ) < 2 ^ r := by positivity
  by_cases hle : r = -1074 ∨ (2 ^ 52 * 2 ^ r : ℚ) ≤ m * 2 ^ q
  · obtain ⟨k, hk⟩ := exists_mul_zpow h hle
    rw [hk] at hlt ⊢
    have hkn : (k + 1 : ℚ) ≤ n := by
      have hkn := lt_of_mul_lt_mul_right hlt hp.le
      exact_mod_cast hkn
    have hkn := mul_le_mul_of_nonneg_right hkn hp.le
    linarith
  · rw [not_or, not_le] at hle
    have hn : (2 ^ 52 + 1 : ℚ) ≤ n := by exact_mod_cast hn.resolve_left hle.1
    have hn := mul_le_mul_of_nonneg_right hn hp.le
    linarith

/-- The middle between a float and one above it is not below the end of the rounding interval. -/
theorem two_mul_upper_le (h : IsAligned m q) (h' : IsAligned m' q')
    (hlt : (m * 2 ^ q : ℚ) < m' * 2 ^ q') :
  2 * ((of m q).upper * 2 ^ (q - 2) : ℚ) ≤ m * 2 ^ q + m' * 2 ^ q'
  := by
  have hp : (0 : ℚ) < 2 ^ q := by positivity
  have hle : q = -1074 ∨ (2 ^ 52 * 2 ^ q : ℚ) ≤ m' * 2 ^ q' := by
    apply h.eq_or_le.imp_right
    intro hm
    have hm : (2 ^ 52 : ℚ) ≤ m := by exact_mod_cast hm
    exact (mul_le_mul_of_nonneg_right hm hp.le).trans hlt.le
  obtain ⟨k, hk⟩ := exists_mul_zpow h' hle
  rw [hk] at hlt ⊢
  have hmk : (m + 1 : ℚ) ≤ k := by
    have hmk := lt_of_mul_lt_mul_right hlt hp.le
    exact_mod_cast hmk
  have hmk := mul_le_mul_of_nonneg_right hmk hp.le
  rw [upper_roundingInterval]
  push_cast
  rw [two_zpow_quarters q] at hmk ⊢
  linarith

/-- The lower end of the rounding interval lies half a last place below the float, or a quarter
below the least mantissa that has all bits. -/
theorem lower_roundingInterval (hm : 0 < m) :
  m = 2 ^ 52 ∧ -1074 < q ∧ ((of m q).lower : ℚ) = 4 * m - 1
    ∨ ¬ (m = 2 ^ 52 ∧ -1074 < q) ∧ ((of m q).lower : ℚ) = 4 * m - 2
  := by
  simp only [of]
  by_cases h : m = leastMantissa ∧ leastExponent < q
  · left
    rw [if_pos h, Nat.cast_sub (by omega)]
    refine ⟨h.1, h.2, ?_⟩
    push_cast
    rfl
  · right
    rw [if_neg h, Nat.cast_sub (by omega)]
    refine ⟨h, ?_⟩
    push_cast
    rfl

/-- The middle between a float and one below it is not above the end of the rounding interval. -/
theorem le_two_mul_lower (h : IsAligned m q) (h' : IsAligned m' q')
    (hlt : (m' * 2 ^ q' : ℚ) < m * 2 ^ q) :
  m * 2 ^ q + m' * 2 ^ q' ≤ 2 * ((of m q).lower * 2 ^ (q - 2) : ℚ)
  := by
  have hm : 0 < m := by
    apply Nat.pos_of_ne_zero
    rintro rfl
    have h0 : (0 : ℚ) ≤ m' * 2 ^ q' := by positivity
    rw [Nat.cast_zero, zero_mul] at hlt
    linarith
  obtain ⟨rfl, hq, hl⟩ | ⟨hmq, hl⟩ := lower_roundingInterval (q := q) hm
  · -- the neighbour below has a smaller last place
    have hX : ((2 ^ 52 : Nat) * 2 ^ q : ℚ) = (2 ^ 53 : Nat) * 2 ^ (q - 1) := by
      rw [two_zpow_halves q]
      norm_num
      ring
    have hq : q - 1 - 1 = q - 2 := by omega
    rw [hX] at hlt ⊢
    have hle := add_zpow_le_of_lt h' (.inr (by decide)) hlt
    rw [hl]
    rw [two_zpow_halves (q - 1), hq] at hle ⊢
    norm_num at hle ⊢
    linarith
  · have hm : q = -1074 ∨ 2 ^ 52 < m := by
      have hq := h.le_exponent
      have hm := h.eq_or_le
      omega
    have hle := add_zpow_le_of_lt h' hm hlt
    rw [hl]
    rw [two_zpow_quarters q] at hle ⊢
    linarith

/-! ### Rounding intervals -/

namespace IsInInterval

variable (hv : IsInInterval m q v) (hc : IsAligned m q) (hc' : IsAligned m' q')

include hv in
theorem nonneg :
  0 ≤ v
  := by
  have h0 : (0 : ℚ) ≤ (of m q).lower * 2 ^ (q - 2) := by positivity
  apply h0.trans hv.le

include hv hc hc' in
/-- No float is nearer to a number than the one in whose rounding interval it lies. -/
theorem abs_sub_le :
  |v - m * 2 ^ q| ≤ |v - m' * 2 ^ q'|
  := by
  obtain h | h | h := lt_trichotomy (m * 2 ^ q : ℚ) (m' * 2 ^ q')
  · rw [abs_sub_le_iff_of_gt h]
    have hu := two_mul_upper_le hc hc' h
    linarith [hv.ge]
  · rw [h]
  · rw [abs_sub_le_iff_of_lt h]
    have hl := le_two_mul_lower hc hc' h
    linarith [hv.le]

include hv hc hc' in
/-- When another float is as near, the mantissa is even. -/
theorem even_of_abs_sub_eq (hne : (m' * 2 ^ q' : ℚ) ≠ m * 2 ^ q)
    (h : |v - m' * 2 ^ q'| = |v - m * 2 ^ q|) :
  m % 2 = 0
  := by
  rw [abs_sub_eq_iff hne.symm] at h
  by_contra hm
  obtain ⟨hl, hu⟩ := hv.odd (by omega)
  obtain h' | h' := lt_or_gt_of_ne hne
  · have := le_two_mul_lower hc hc' h'
    linarith
  · have := two_mul_upper_le hc hc' h'
    linarith

end IsInInterval

/-- Half of the way to the neighbour below is the lower end of the rounding interval. -/
theorem exists_below (hc : IsAligned m q) (hm : 0 < m) :
  ∃ m' q', IsAligned m' q' ∧ q' ≤ q ∧ (m' * 2 ^ q' : ℚ) < m * 2 ^ q
    ∧ m * 2 ^ q + m' * 2 ^ q' = 2 * ((of m q).lower * 2 ^ (q - 2) : ℚ)
  := by
  have hq := hc.le_exponent
  have hp : (0 : ℚ) < 2 ^ (q - 2) := by positivity
  obtain ⟨rfl, hlt, hl⟩ | ⟨hmq, hl⟩ := lower_roundingInterval (q := q) hm
  · have hq : q - 1 - 1 = q - 2 := by omega
    refine ⟨2 ^ 53 - 1, q - 1, ⟨by decide, by omega, .inr (by decide)⟩, by omega, ?_, ?_⟩
    · rw [two_zpow_quarters q, two_zpow_halves (q - 1), hq]
      norm_num
      linarith
    · rw [hl, two_zpow_quarters q, two_zpow_halves (q - 1), hq]
      norm_num
      ring
  · have hlt := hc.lt
    have hm' := hc.eq_or_le
    refine ⟨m - 1, q, ⟨by omega, hq, by omega⟩, le_refl q, ?_, ?_⟩
    · rw [two_zpow_quarters q, Nat.cast_pred hm]
      linarith
    · rw [hl, two_zpow_quarters q, Nat.cast_pred hm]
      ring

/-- Half of the way to the neighbour above is the upper end of the rounding interval. -/
theorem exists_above (hc : IsAligned m q) :
  ∃ m' q', IsAligned m' q' ∧ (q' ≤ q ∨ m = 2 ^ 53 - 1 ∧ q' = q + 1)
    ∧ (m * 2 ^ q : ℚ) < m' * 2 ^ q'
    ∧ m * 2 ^ q + m' * 2 ^ q' = 2 * ((of m q).upper * 2 ^ (q - 2) : ℚ)
  := by
  have hq := hc.le_exponent
  have hlt := hc.lt
  have hm := hc.eq_or_le
  have hp : (0 : ℚ) < 2 ^ (q - 2) := by positivity
  rw [upper_roundingInterval]
  by_cases h : m = 2 ^ 53 - 1
  · have hq' : q + 1 - 1 = q := by omega
    refine ⟨2 ^ 52, q + 1, ⟨by decide, by omega, .inr (le_refl _)⟩, .inr ⟨h, rfl⟩, ?_, ?_⟩
    · rw [h, two_zpow_halves (q + 1), hq', two_zpow_quarters q]
      norm_num
      linarith
    · rw [h, two_zpow_halves (q + 1), hq', two_zpow_quarters q]
      norm_num
      ring
  · refine ⟨m + 1, q, ⟨by omega, hq, by omega⟩, .inl (le_refl q), ?_, ?_⟩
    · rw [two_zpow_quarters q]
      push_cast
      linarith
    · rw [two_zpow_quarters q]
      push_cast
      ring

/-! ### Intervals cover the numbers -/

/-- There is a natural number nearest to each number that is not negative. -/
theorem exists_roundsTo {w : ℚ} (hw : 0 ≤ w) :
  ∃ k, RoundsTo w k
  := by
  have hl := Nat.floor_le hw
  have hu := Nat.lt_floor_add_one w
  generalize ⌊w⌋₊ = n at hl hu
  obtain h | h | h := lt_trichotomy (2 * w) (2 * n + 1)
  · refine ⟨n, ?_, ?_, fun _ => ⟨?_, ?_⟩⟩ <;> linarith
  · obtain hn | hn := Nat.mod_two_eq_zero_or_one n
    · refine ⟨n, ?_, ?_, fun hn' => by omega⟩ <;> linarith
    · refine ⟨n + 1, ?_, ?_, fun hn' => by omega⟩ <;> push_cast <;> linarith
  · refine ⟨n + 1, ?_, ?_, fun _ => ⟨?_, ?_⟩⟩ <;> push_cast <;> linarith

/-- There is an exponent with which the mantissa of a number has the bits that it should have. -/
theorem exists_exponent (v : ℚ) :
  ∃ q : Int, -1074 ≤ q ∧ v < 2 ^ (q + 53) ∧ (q = -1074 ∨ 2 ^ (q + 52) ≤ v)
  := by
  by_cases h : v < 2 ^ (-1021 : Int)
  · exact ⟨-1074, le_refl _, h, .inl rfl⟩
  · rw [not_lt] at h
    have hpos : 0 < v := lt_of_lt_of_le (by positivity) h
    have hl := Int.zpow_log_le_self one_lt_two hpos
    have hu := Int.lt_zpow_succ_log_self one_lt_two v
    push_cast at hl hu
    have hlog := (zpow_lt_zpow_iff_right₀ (one_lt_two : (1 : ℚ) < 2)).mp (lt_of_le_of_lt h hu)
    refine ⟨Int.log 2 v - 52, by omega, ?_, .inr ?_⟩
    · have he : Int.log 2 v - 52 + 53 = Int.log 2 v + 1 := by omega
      rw [he]
      apply hu
    · rw [Int.sub_add_cancel]
      apply hl

/-- A number whose nearest natural multiple of a last place is `k` lies in the rounding interval of
that multiple. -/
theorem RoundsTo.isInInterval {w : ℚ} {k : Nat} (h : RoundsTo w k) (hw : 0 ≤ w)
    (hk : 2 ^ 52 ≤ w ∨ q = -1074) :
  IsInInterval k q (w * 2 ^ q)
  := by
  have hp : (0 : ℚ) < 2 ^ (q - 2) := by positivity
  have hv : w * 2 ^ q = 4 * w * 2 ^ (q - 2) := by
    rw [two_zpow_quarters q]
    ring
  have hl : ((of k q).lower : ℚ) ≤ 4 * w ∧ (k % 2 = 1 → ((of k q).lower : ℚ) < 4 * w) := by
    rcases Nat.eq_zero_or_pos k with rfl | hpos
    · constructor
      · simpa [of, leastMantissa] using hw
      · intro ho
        contradiction
    · obtain ⟨rfl, hq, hl⟩ | ⟨-, hl⟩ := lower_roundingInterval (q := q) hpos
      · rw [hl]
        constructor
        · have hw := hk.resolve_right (by omega)
          push_cast
          linarith
        · intro ho
          contradiction
      · rw [hl]
        constructor
        · linarith [h.le]
        · intro ho
          linarith [(h.odd ho).1]
  have hu : 4 * w ≤ (of k q).upper ∧ (k % 2 = 1 → 4 * w < (of k q).upper) := by
    rw [upper_roundingInterval]
    push_cast
    constructor
    · linarith [h.ge]
    · intro ho
      linarith [(h.odd ho).2]
  rw [hv]
  constructor
  · exact mul_le_mul_of_nonneg_right hl.1 hp.le
  · exact mul_le_mul_of_nonneg_right hu.1 hp.le
  · intro ho
    exact ⟨mul_lt_mul_of_pos_right (hl.2 ho) hp, mul_lt_mul_of_pos_right (hu.2 ho) hp⟩

/-- When the mantissa becomes too long, the exponent goes up. -/
theorem RoundsTo.isInInterval_succ {w : ℚ} (h : RoundsTo w (2 ^ 53)) (hlt : w < 2 ^ 53)
    (hq : -1074 ≤ q) :
  IsInInterval (2 ^ 52) (q + 1) (w * 2 ^ q)
  := by
  have hq' : q + 1 - 2 = q - 1 := by omega
  have hp : (0 : ℚ) < 2 ^ (q - 1) := by positivity
  have hl : ((of (2 ^ 52) (q + 1)).lower : ℚ) = 2 ^ 54 - 1 := by
    obtain ⟨-, -, hl⟩ | ⟨hne, -⟩ := lower_roundingInterval (m := 2 ^ 52) (q := q + 1) (by decide)
    · rw [hl]
      norm_num
    · exact absurd ⟨rfl, by omega⟩ hne
  have hv : w * 2 ^ q = 2 * w * 2 ^ (q - 1) := by
    rw [two_zpow_halves q]
    ring
  have hle := h.le
  push_cast at hle
  rw [hv]
  constructor
  · rw [hl, hq']
    apply mul_le_mul_of_nonneg_right _ hp.le
    linarith
  · rw [upper_roundingInterval, hq']
    apply mul_le_mul_of_nonneg_right _ hp.le
    push_cast
    linarith
  · intro ho
    contradiction

/-- Each number that is not negative lies in some rounding interval. -/
theorem exists_isInInterval (hv : 0 ≤ v) :
  ∃ m q, IsAligned m q ∧ IsInInterval m q v
  := by
  obtain ⟨q, hq, hlt, hge⟩ := exists_exponent v
  have hp : (0 : ℚ) < 2 ^ q := by positivity
  -- the number in last places
  obtain ⟨w, rfl⟩ : ∃ w, v = w * 2 ^ q := ⟨v / 2 ^ q, (div_mul_cancel₀ v hp.ne').symm⟩
  have hw : 0 ≤ w := nonneg_of_mul_nonneg_left hv hp
  have hlt : w < 2 ^ 53 := by
    rw [← two_pow_mul (n := 53) (b := q) (c := q + 53) (by omega)] at hlt
    exact lt_of_mul_lt_mul_right hlt hp.le
  have hge : q = -1074 ∨ 2 ^ 52 ≤ w := by
    rw [← two_pow_mul (n := 52) (b := q) (c := q + 52) (by omega)] at hge
    exact hge.imp_right fun h => le_of_mul_le_mul_right h hp
  obtain ⟨k, hk⟩ := exists_roundsTo hw
  have hk53 : k ≤ 2 ^ 53 := by
    have hk : (k : ℚ) < 2 ^ 53 + 1 := by linarith [hk.le]
    have hk : k < 2 ^ 53 + 1 := by exact_mod_cast hk
    omega
  have hk52 : q = -1074 ∨ 2 ^ 52 ≤ k := by
    apply hge.imp_right
    intro hw
    have hk : (2 ^ 52 : ℚ) < k + 1 := by linarith [hk.ge]
    have hk : 2 ^ 52 < k + 1 := by exact_mod_cast hk
    omega
  obtain hlt' | rfl := Nat.lt_or_eq_of_le hk53
  · exact ⟨k, q, ⟨hlt', hq, hk52⟩, hk.isInInterval hw hge.symm⟩
  · exact ⟨2 ^ 52, q + 1, ⟨by decide, by omega, .inr (le_refl _)⟩, hk.isInInterval_succ hlt hq⟩

end SliderCalculator.Number
