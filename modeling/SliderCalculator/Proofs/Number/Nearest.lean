import SliderCalculator.Proofs.Number.Neighbours
import SliderCalculator.Proofs.Number.Sign

/-!
# The nearest float

A number is rounded to the nearest of all floats, and from halfway between two to the one with the
even mantissa: `IsNearest`. The numbers that are rounded to a float are those of its rounding
interval: `isNearest_iff`.
-/

namespace SliderCalculator.Number

open Float.Model (UnpackedFloat)
open Float.Model.UnpackedFloat (Sign)
open RoundingInterval

/-- The rational that an unpacked float stands for. -/
def rational : UnpackedFloat → ℚ
  | .finite .positive m q _ => m * 2 ^ q
  | .finite .negative m q _ => -(m * 2 ^ q)
  | _ => 0

/-- The rational that a finite float stands for. -/
def toRat (x : Float) : ℚ :=
  rational x.toModel.unpack

/-- A number with a sign put to it. -/
def withSign : Sign → ℚ → ℚ
  | .positive, v => v
  | .negative, v => -v

/-- Whether the mantissa of a float is even. -/
def IsEven (x : Float) : Prop :=
  ∀ s m q hm, x.toModel.unpack = .finite s m q hm → m % 2 = 0

/-- What is not below this number is too large for a finite float. It lies halfway between the
greatest float and the number that would be next to it. -/
def overflow : ℚ :=
  2 ^ 1024 - 2 ^ 970

/-- Whether a float is the one that a number is rounded to, apart from the sign of a float that is
zero or infinite: the nearest float, and of two the one with the even mantissa, unless the number is
too large. -/
structure IsNearest (v : ℚ) (x : Float) : Prop where
  isFinite_iff : x.isFinite = true ↔ |v| < overflow
  le : x.isFinite = true → ∀ y : Float, y.isFinite = true → |v - toRat x| ≤ |v - toRat y|
  isEven : x.isFinite = true → ∀ y : Float, y.isFinite = true → toRat y ≠ toRat x →
    |v - toRat y| = |v - toRat x| → IsEven x

variable {m m' : Nat} {q q' : Int} {v : ℚ}

/-! ### Numbers that are too large -/

/-- The rounding interval of the greatest float ends where numbers are too large. -/
theorem upper_of_greatest :
  ((of (2 ^ 53 - 1) 971).upper * 2 ^ ((971 : Int) - 2) : ℚ) = overflow
  := by
  have h₁ : (2 : ℚ) ^ 1024 = 2 ^ 55 * 2 ^ 969 := by rw [← pow_add]
  have h₂ : (2 : ℚ) ^ 970 = 2 * 2 ^ 969 := pow_succ' 2 969
  have h₃ : (2 : ℚ) ^ ((971 : Int) - 2) = 2 ^ 969 := zpow_natCast 2 969
  rw [upper_roundingInterval, overflow, h₁, h₂, h₃]
  generalize (2 : ℚ) ^ 969 = u
  push_cast
  ring

/-- Numbers are too large from half a last place above the greatest float on. -/
theorem overflow_eq :
  overflow = (2 ^ 55 - 2) * 2 ^ (969 : Int)
  := by
  rw [← upper_of_greatest, upper_roundingInterval]
  norm_num

/-- The numbers of the rounding interval of a float are not too large. -/
theorem IsInInterval.lt_overflow (hv : IsInInterval m q v) (hc : IsAligned m q) (hq : q ≤ 971) :
  v < overflow
  := by
  have hp : (2 : ℚ) ^ (q - 2) ≤ 2 ^ (969 : Int) := zpow_le_zpow_right₀ one_le_two (by omega)
  have hlt := hc.lt
  have hupper {b : ℚ} (hb : 0 ≤ b) (h : ((of m q).upper : ℚ) ≤ b) :
      (of m q).upper * 2 ^ (q - 2) ≤ b * 2 ^ (969 : Int) :=
    mul_le_mul h hp (by positivity) hb
  rw [upper_roundingInterval] at hupper
  rw [overflow_eq]
  obtain hm | hm := Nat.mod_two_eq_zero_or_one m
  · have hm : ((4 * m + 2 : Nat) : ℚ) ≤ 2 ^ 55 - 6 := by
      have hm : 4 * m + 2 + 6 ≤ 2 ^ 55 := by omega
      have hm : ((4 * m + 2 : Nat) + 6 : ℚ) ≤ 2 ^ 55 := by exact_mod_cast hm
      linarith
    calc v
      _ ≤ (4 * m + 2 : Nat) * 2 ^ (q - 2) := hv.ge
      _ ≤ (2 ^ 55 - 6) * 2 ^ (969 : Int) := hupper (by norm_num) hm
      _ < (2 ^ 55 - 2) * 2 ^ (969 : Int) := by
        apply mul_lt_mul_of_pos_right (by norm_num)
        positivity
  · -- the upper end of the greatest float is not in its interval
    have hm' : ((4 * m + 2 : Nat) : ℚ) ≤ 2 ^ 55 - 2 := by
      have hm : 4 * m + 2 + 2 ≤ 2 ^ 55 := by omega
      have hm : ((4 * m + 2 : Nat) + 2 : ℚ) ≤ 2 ^ 55 := by exact_mod_cast hm
      linarith
    calc v
      _ < (4 * m + 2 : Nat) * 2 ^ (q - 2) := (hv.odd hm).2
      _ ≤ (2 ^ 55 - 2) * 2 ^ (969 : Int) := hupper (by norm_num) hm'

/-- The numbers of an interval beyond those of floats are too large. -/
theorem IsInInterval.overflow_le (hv : IsInInterval m q v) (hc : IsAligned m q) (hq : 971 < q) :
  overflow ≤ v
  := by
  have hm : 2 ^ 52 ≤ m := hc.eq_or_le.resolve_left (by omega)
  have hl : (2 ^ 54 - 1 : ℚ) ≤ (of m q).lower := by
    obtain ⟨rfl, -, hl⟩ | ⟨hne, hl⟩ := lower_roundingInterval (m := m) (q := q) (by omega)
    · rw [hl]
      norm_num
    · have hm : (2 ^ 52 + 1 : ℚ) ≤ m := by
        have hm : 2 ^ 52 + 1 ≤ m := by omega
        exact_mod_cast hm
      rw [hl]
      linarith
  rw [overflow_eq]
  calc ((2 ^ 55 - 2) * 2 ^ (969 : Int) : ℚ)
    _ = (2 ^ 54 - 1) * 2 ^ (970 : Int) := by
      have hu : (970 - 1 : Int) = 969 := rfl
      rw [two_zpow_halves 970, hu]
      ring
    _ ≤ (of m q).lower * 2 ^ (q - 2) := by
      apply mul_le_mul hl (zpow_le_zpow_right₀ one_le_two (by omega)) (by positivity)
      positivity
    _ ≤ v := hv.le

/-- The numbers of a rounding interval are too large exactly when the float is. -/
theorem IsInInterval.lt_overflow_iff (hv : IsInInterval m q v) (hc : IsAligned m q) :
  v < overflow ↔ q ≤ 971
  := by
  constructor
  · intro h
    by_contra hq
    exact not_le_of_gt h (hv.overflow_le hc (lt_of_not_ge hq))
  · apply hv.lt_overflow hc

/-- A number lies in the rounding interval of a float that is one of the nearest to it, and has an
even mantissa if another one is as near, unless the number is too large. -/
theorem isInInterval_of_nearest (hc : IsAligned m q) (hq : q ≤ 971) (hv : 0 ≤ v)
    (hlt : v < overflow)
    (hn : ∀ m' q', IsAligned m' q' → q' ≤ 971 → |v - m * 2 ^ q| ≤ |v - m' * 2 ^ q'|)
    (he : ∀ m' q', IsAligned m' q' → q' ≤ 971 → (m' * 2 ^ q' : ℚ) ≠ m * 2 ^ q →
      |v - m' * 2 ^ q'| = |v - m * 2 ^ q| → m % 2 = 0) :
  IsInInterval m q v
  := by
  have hl : (of m q).lower * 2 ^ (q - 2) ≤ v
      ∧ (m % 2 = 1 → (of m q).lower * 2 ^ (q - 2) < v) := by
    rcases Nat.eq_zero_or_pos m with rfl | hm
    · constructor
      · apply le_of_eq_of_le _ hv
        simp [of, leastMantissa]
      · intro h
        contradiction
    · obtain ⟨m', q', hc', hq', h, hsum⟩ := exists_below hc hm
      have hle := (abs_sub_le_iff_of_lt h).mp (hn m' q' hc' (by omega))
      constructor
      · linarith
      · intro ho
        apply lt_of_le_of_ne (by linarith)
        rintro rfl
        have heq := (abs_sub_eq_iff (ne_of_gt h)).mpr hsum.symm
        have := he m' q' hc' (by omega) (ne_of_lt h) heq
        omega
  have hu : v ≤ (of m q).upper * 2 ^ (q - 2)
      ∧ (m % 2 = 1 → v < (of m q).upper * 2 ^ (q - 2)) := by
    by_cases hmax : m = 2 ^ 53 - 1 ∧ q = 971
    · obtain ⟨rfl, rfl⟩ := hmax
      rw [upper_of_greatest]
      exact ⟨hlt.le, fun _ => hlt⟩
    · obtain ⟨m', q', hc', hq', h, hsum⟩ := exists_above hc
      have hle := (abs_sub_le_iff_of_gt h).mp (hn m' q' hc' (by omega))
      constructor
      · linarith
      · intro ho
        apply lt_of_le_of_ne (by linarith)
        rintro rfl
        have heq := (abs_sub_eq_iff (ne_of_lt h)).mpr hsum.symm
        have := he m' q' hc' (by omega) (ne_of_gt h) heq
        omega
  exact ⟨hl.1, hu.1, fun ho => ⟨hl.2 ho, hu.2 ho⟩⟩

/-! ### Floats -/

theorem rational_zero (s : Sign) :
  rational (.zero s) = 0
  := by
  cases s <;> rfl

theorem rational_aligned (m : Nat) (q : Int) :
  rational (aligned m q) = m * 2 ^ q
  := by
  rcases Nat.eq_zero_or_pos m with rfl | hm
  · rw [aligned_zero, rational_zero, Nat.cast_zero, zero_mul]
  · rw [aligned_of_pos hm]
    rfl

theorem isFinite_aligned (m : Nat) (q : Int) :
  (aligned m q).isFinite = true
  := by
  rcases Nat.eq_zero_or_pos m with rfl | hm
  · rfl
  · rw [aligned_of_pos hm]
    rfl

/-- Every mantissa and exponent that is not too large is that of a float. -/
theorem unpack_pack_aligned (hc : IsAligned m q) (hq : q ≤ 971) :
  (Float.ofModel (.pack (aligned m q))).toModel.unpack = aligned m q
  := by
  rcases Nat.eq_zero_or_pos m with rfl | hm
  · rw [aligned_zero]
    exact unpack_zero
  · rw [aligned_of_pos hm]
    exact unpack_pack_finite hm ⟨hm, hc.lt, hc.le_exponent, hq, hc.eq_or_le⟩

variable {x : Float}

theorem rational_finite (s : Sign) (m : Nat) (q : Int) (hm : 0 < m) :
  rational (.finite s m q hm) = withSign s (m * 2 ^ q)
  := by
  cases s <;> rfl

/-- A finite float is a zero or has a mantissa and an exponent, and a sign. -/
theorem cases_of_isFinite (hx : x.isFinite = true) :
  (∃ s, x.toModel.unpack = .zero s ∧ toRat x = 0)
    ∨ ∃ s m q hm, x.toModel.unpack = .finite s m q hm ∧ IsCanonical m q
      ∧ toRat x = withSign s (m * 2 ^ q)
  := by
  change x.toModel.unpack.isFinite = true at hx
  rw [toRat]
  cases hu : x.toModel.unpack with
  | notANumber | infinity =>
    rw [hu] at hx
    contradiction
  | zero s => exact .inl ⟨s, rfl, rational_zero s⟩
  | finite s m q hm =>
    have hc := (isCanonical_of_unpack_eq_finite _ hu).2
    exact .inr ⟨s, m, q, hm, rfl, hc, rational_finite s m q hm⟩

/-- A finite float stands for a number that a mantissa and an exponent stand for, or its
negative. -/
theorem exists_toRat_eq (hx : x.isFinite = true) :
  ∃ m q, IsAligned m q ∧ q ≤ 971 ∧ (toRat x = m * 2 ^ q ∨ toRat x = -(m * 2 ^ q))
  := by
  obtain ⟨-, -, ht⟩ | ⟨s, m, q, -, -, hc, ht⟩ := cases_of_isFinite hx
  · refine ⟨0, -1074, isAligned_zero, by decide, .inl ?_⟩
    rw [ht, Nat.cast_zero, zero_mul]
  · refine ⟨m, q, hc.isAligned, hc.exponent_le, ?_⟩
    cases s with
    | positive => exact .inl ht
    | negative => exact .inr ht

theorem isEven_iff (hx : x.toModel.unpack = aligned m q) :
  IsEven x ↔ m % 2 = 0
  := by
  rw [IsEven, hx]
  rcases Nat.eq_zero_or_pos m with rfl | hm
  · rw [aligned_zero]
    exact iff_of_true nofun rfl
  · rw [aligned_of_pos hm]
    constructor
    · intro h
      apply h _ _ _ _ rfl
    · rintro h s m' q' hm' ⟨⟩
      apply h

/-- What is unpacked to a mantissa and an exponent is finite and stands for their number. -/
theorem isFinite_and_toRat_eq (hx : x.toModel.unpack = aligned m q) :
  x.isFinite = true ∧ toRat x = m * 2 ^ q
  := by
  change x.toModel.unpack.isFinite = true ∧ rational x.toModel.unpack = m * 2 ^ q
  rw [hx]
  exact ⟨isFinite_aligned m q, rational_aligned m q⟩

/-- A number that is not negative lies in the rounding interval of the float that it is rounded
to. -/
theorem IsNearest.isInInterval (h : IsNearest v x) (hx : x.isFinite = true)
    (htx : toRat x = m * 2 ^ q) (he : IsEven x → m % 2 = 0) (hc : IsAligned m q) (hq : q ≤ 971)
    (hv : 0 ≤ v) :
  IsInInterval m q v
  := by
  have hlt := h.isFinite_iff.mp hx
  rw [abs_of_nonneg hv] at hlt
  apply isInInterval_of_nearest hc hq hv hlt
  · intro m' q' hc' hq'
    obtain ⟨hyf, hty⟩ := isFinite_and_toRat_eq (unpack_pack_aligned hc' hq')
    rw [← htx, ← hty]
    apply h.le hx _ hyf
  · intro m' q' hc' hq' hne heq
    obtain ⟨hyf, hty⟩ := isFinite_and_toRat_eq (unpack_pack_aligned hc' hq')
    rw [← htx, ← hty] at hne heq
    apply he (h.isEven hx _ hyf hne heq)

/-- A number is rounded to the float in whose rounding interval it lies. -/
theorem IsInInterval.isNearest (h : IsInInterval m q v) (hx : x.toModel.unpack = aligned m q)
    (hc : IsAligned m q) (hq : q ≤ 971) :
  IsNearest v x
  := by
  obtain ⟨hf, htx⟩ := isFinite_and_toRat_eq hx
  have hv := h.nonneg
  -- zero is nearer than anything below it
  have hzero := h.abs_sub_le hc isAligned_zero
  rw [Nat.cast_zero, zero_mul, sub_zero, abs_of_nonneg hv] at hzero
  have hneg (m' : Nat) (q' : Int) : |v - -(m' * 2 ^ q')| = v + m' * 2 ^ q' := by
    rw [sub_neg_eq_add]
    apply abs_of_nonneg
    positivity
  constructor
  · rw [abs_of_nonneg hv, h.lt_overflow_iff hc]
    exact ⟨fun _ => hq, fun _ => hf⟩
  · intro _ y hy
    obtain ⟨m', q', hc', -, hty | hty⟩ := exists_toRat_eq hy
    · rw [htx, hty]
      apply h.abs_sub_le hc hc'
    · have h0 : (0 : ℚ) ≤ m' * 2 ^ q' := by positivity
      rw [htx, hty, hneg]
      linarith
  · intro _ y hy hne heq
    rw [isEven_iff hx]
    obtain ⟨m', q', hc', -, hty | hty⟩ := exists_toRat_eq hy
    · rw [htx, hty] at hne heq
      apply h.even_of_abs_sub_eq hc hc' hne heq
    · rw [htx, hty, hneg] at heq
      have h0 : (0 : ℚ) ≤ m' * 2 ^ q' := by positivity
      have hy0 : (m' * 2 ^ q' : ℚ) = 0 := by linarith
      rw [htx, hty, hy0, neg_zero] at hne
      apply h.even_of_abs_sub_eq hc isAligned_zero
      · simpa using hne
      · rw [Nat.cast_zero, zero_mul, sub_zero, abs_of_nonneg hv, ← heq, hy0, add_zero]

/-- A number that is not negative is rounded to a float without a sign exactly when it lies in the
rounding interval of the float. -/
theorem isNearest_iff (hx : x.toModel.unpack = aligned m q) (hc : IsAligned m q) (hq : q ≤ 971)
    (hv : 0 ≤ v) :
  IsNearest v x ↔ IsInInterval m q v
  := by
  obtain ⟨hf, htx⟩ := isFinite_and_toRat_eq hx
  constructor
  · intro h
    apply h.isInInterval hf htx (isEven_iff hx).mp hc hq hv
  · intro h
    apply h.isNearest hx hc hq

end SliderCalculator.Number
