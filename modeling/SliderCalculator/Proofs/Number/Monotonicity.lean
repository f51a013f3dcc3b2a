import SliderCalculator.Proofs.Number.Grid
import SliderCalculator.Proofs.Number.Reading

/-!
# Rounding is monotone

Finite floats are in the order of the numbers that they stand for: `le_iff_toRat_le`. Of two numbers
the greater one is not rounded to the less float, numbers included that are too large for a finite
one: `Rounds.le`.
-/

namespace SliderCalculator.Number

open Float.Model (UnpackedFloat)
open Float.Model.UnpackedFloat (Sign)

variable {m m' : Nat} {q q' : Int} {v w : ℚ} {x y z : Float}

/-! ### The order of finite floats -/

/-- Of two mantissas with exponents the one with the greater exponent stands for the greater
number. -/
theorem mul_zpow_lt_of_lt (h : IsAligned m q) (h' : IsAligned m' q') (hq : q < q') :
  (m * 2 ^ q : ℚ) < m' * 2 ^ q'
  := by
  have hm : (m : ℚ) < 2 ^ 53 := by exact_mod_cast h.lt
  have hm' : (2 ^ 52 : ℚ) ≤ m' := by
    have hle := h.le_exponent
    exact_mod_cast h'.eq_or_le.resolve_left (by omega)
  calc (m * 2 ^ q : ℚ)
    _ < 2 ^ 53 * 2 ^ q := by
      apply mul_lt_mul_of_pos_right hm
      positivity
    _ = 2 ^ (q + 53) := two_pow_mul (by omega)
    _ ≤ 2 ^ (q' + 52) := zpow_le_zpow_right₀ one_le_two (by omega)
    _ = 2 ^ 52 * 2 ^ q' := (two_pow_mul (by omega)).symm
    _ ≤ m' * 2 ^ q' := by
      apply mul_le_mul_of_nonneg_right hm'
      positivity

/-- Mantissas with exponents are in the order of the exponents, and then in that of the
mantissas. -/
theorem mul_zpow_le_iff (h : IsAligned m q) (h' : IsAligned m' q') :
  (m * 2 ^ q : ℚ) ≤ m' * 2 ^ q' ↔ toLex (q, (m : ℤ)) ≤ toLex (q', (m' : ℤ))
  := by
  rw [Prod.Lex.toLex_le_toLex]
  have hp : (0 : ℚ) < 2 ^ q := by positivity
  obtain hq | rfl | hq := lt_trichotomy q q'
  · exact iff_of_true (mul_zpow_lt_of_lt h h' hq).le (.inl hq)
  · rw [mul_le_mul_iff_of_pos_right hp]
    simp
  · apply iff_of_false
    · exact not_le_of_gt (mul_zpow_lt_of_lt h' h hq)
    · simp only
      omega

/-- Finite floats are in the order of the numbers that they stand for. -/
theorem le_iff_toRat_le (hx : x.isFinite = true) (hy : y.isFinite = true) :
  x ≤ y ↔ toRat x ≤ toRat y
  := by
  rw [le_iff_place_le (isNaN_of_isFinite hx) (isNaN_of_isFinite hy)]
  have pos {m : Nat} (hm : 0 < m) (q : Int) : (0 : ℚ) < m * 2 ^ q := by positivity
  obtain ⟨s, hu, htx⟩ | ⟨s, m, q, hm, hu, hc, htx⟩ := cases_of_isFinite hx
  · obtain ⟨t, hv, hty⟩ | ⟨t, n, r, hn, hv, -, hty⟩ := cases_of_isFinite hy
    · rw [hu, hv, htx, hty]
      exact iff_of_true (le_refl _) (le_refl _)
    · have hpos := pos hn r
      rw [hu, hv, htx, hty]
      clear hu hv
      cases t <;> unfold place withSign <;> simp only [Prod.Lex.toLex_le_toLex] <;> grind
  · have hpos := pos hm q
    obtain ⟨t, hv, hty⟩ | ⟨t, n, r, hn, hv, hc', hty⟩ := cases_of_isFinite hy
    · rw [hu, hv, htx, hty]
      clear hu hv
      cases s <;> unfold place withSign <;> simp only [Prod.Lex.toLex_le_toLex] <;> grind
    · -- of two negative numbers the one with the greater exponent and mantissa is the less
      have hpos' := pos hn r
      have h := mul_zpow_le_iff hc.isAligned hc'.isAligned
      have h' := mul_zpow_le_iff hc'.isAligned hc.isAligned
      rw [Prod.Lex.toLex_le_toLex] at h h'
      rw [hu, hv, htx, hty]
      clear hu hv
      cases s <;> cases t <;> unfold place withSign <;>
        simp only [Prod.Lex.toLex_le_toLex] <;> grind

theorem isFinite_zero :
  (0 : Float).isFinite = true
  := by
  decide +kernel

theorem toRat_zero :
  toRat 0 = 0
  := rational_zero _

theorem zero_le_iff_toRat_nonneg (hx : x.isFinite = true) :
  0 ≤ x ↔ 0 ≤ toRat x
  := by
  rw [le_iff_toRat_le isFinite_zero hx, toRat_zero]

theorem le_zero_iff_toRat_nonpos (hx : x.isFinite = true) :
  x ≤ 0 ↔ toRat x ≤ 0
  := by
  rw [le_iff_toRat_le hx isFinite_zero, toRat_zero]

theorem place_eq_iff (hx : x.isFinite = true) (hy : y.isFinite = true) :
  place x.toModel.unpack = place y.toModel.unpack ↔ toRat x = toRat y
  := by
  have hnx := isNaN_of_isFinite hx
  have hny := isNaN_of_isFinite hy
  rw [le_antisymm_iff, le_antisymm_iff, ← le_iff_place_le hnx hny, ← le_iff_place_le hny hnx,
    le_iff_toRat_le hx hy, le_iff_toRat_le hy hx]

/-- Finite floats are equal as numbers when they stand for the same. -/
theorem beq_iff_toRat_eq (hx : x.isFinite = true) (hy : y.isFinite = true) :
  (x == y) = true ↔ toRat x = toRat y
  := by
  rw [beq_iff_place_eq (isNaN_of_isFinite hx) (isNaN_of_isFinite hy), place_eq_iff hx hy]

/-- There are two floats that stand for zero. -/
theorem eq_zero_of_toRat_eq (hx : x.isFinite = true) (h : toRat x = 0) :
  x = 0.0 ∨ x = -0.0
  := by
  have hn : toRat (-0.0) = 0 := rational_zero _
  apply eq_zero_of_le
  · rw [le_iff_toRat_le hx (by decide +kernel), h, hn]
  · rw [← zero_le_iff hx, zero_le_iff_toRat_nonneg hx, h]

/-- Finite floats that stand for the same are the same, unless they are zeros. -/
theorem eq_of_toRat_eq (hx : x.isFinite = true) (hy : y.isFinite = true) (h : toRat x = toRat y)
    (h0 : toRat x ≠ 0) :
  x = y
  := by
  have hp := (place_eq_iff hx hy).mpr h
  obtain ⟨-, -, htx⟩ | ⟨s, m, q, hm, hu, -, -⟩ := cases_of_isFinite hx
  · contradiction
  obtain ⟨-, -, hty⟩ | ⟨t, n, r, hn, hv, -, -⟩ := cases_of_isFinite hy
  · rw [hty] at h
    contradiction
  apply eq_of_unpack_eq
  rw [hu, hv] at hp ⊢
  rw [UnpackedFloat.finite.injEq]
  clear hu hv
  cases s <;> cases t <;> unfold place at hp <;>
    simp only [toLex_inj, Prod.mk.injEq] at hp <;> grind

/-- Infinity is above all numbers. -/
theorem le_infinity (hx : x.isNaN = false) (hy : y.toModel.unpack = .infinity .positive) :
  x ≤ y
  := by
  change x.toModel.unpack.isNaN = false at hx
  rw [le_iff_compare, hy]
  cases hu : x.toModel.unpack with
  | notANumber =>
    rw [hu] at hx
    contradiction
  | infinity s => cases s <;> rfl
  | zero s | finite s => rfl

/-- The negative infinity is below all numbers. -/
theorem infinity_le (hx : x.toModel.unpack = .infinity .negative) (hy : y.isNaN = false) :
  x ≤ y
  := by
  change y.toModel.unpack.isNaN = false at hy
  rw [le_iff_compare, hx]
  cases hu : y.toModel.unpack with
  | notANumber =>
    rw [hu] at hy
    contradiction
  | infinity s => cases s <;> rfl
  | zero s | finite s => rfl

/-- Only infinity is not below infinity. -/
theorem eq_infinity_of_infinity_le (h : x ≤ y) (hx : x.toModel.unpack = .infinity .positive) :
  y.toModel.unpack = .infinity .positive
  := by
  rw [le_iff_compare, hx] at h
  cases hu : y.toModel.unpack with
  | infinity s =>
    rw [hu] at h
    cases s with
    | positive => rfl
    | negative => contradiction
  | notANumber | zero s | finite s =>
    rw [hu] at h
    contradiction

/-- Only the negative infinity is not above the negative infinity. -/
theorem eq_infinity_of_le_infinity (h : x ≤ y) (hy : y.toModel.unpack = .infinity .negative) :
  x.toModel.unpack = .infinity .negative
  := by
  rw [le_iff_compare, hy] at h
  cases hu : x.toModel.unpack with
  | infinity s =>
    rw [hu] at h
    cases s with
    | negative => rfl
    | positive => contradiction
  | notANumber | zero s | finite s =>
    rw [hu] at h
    contradiction

/-- What is neither finite nor infinite is not a number. -/
theorem exists_infinity (hx : x.isNaN = false) (hf : x.isFinite = false) :
  ∃ s, x.toModel.unpack = .infinity s
  := by
  change x.toModel.unpack.isNaN = false at hx
  change x.toModel.unpack.isFinite = false at hf
  cases hu : x.toModel.unpack with
  | infinity s => exact ⟨s, rfl⟩
  | notANumber =>
    rw [hu] at hx
    contradiction
  | zero s | finite s =>
    rw [hu] at hf
    contradiction

/-! ### The nearest float -/

/-- Rounding intervals that share a number are those of one float. -/
theorem IsInInterval.mul_zpow_eq (h : IsInInterval m q v) (h' : IsInInterval m' q' v)
    (hc : IsAligned m q) (hc' : IsAligned m' q') :
  (m * 2 ^ q : ℚ) = m' * 2 ^ q'
  := by
  have zero {m : Nat} {q : Int} (hc : IsAligned m q) (h : IsInInterval m q v) (hv : v = 0) :
      m = 0 := by
    apply Nat.eq_zero_of_not_pos
    intro hm
    exact (h.pos hc hm).ne' hv
  by_cases hv : v = 0
  · rw [zero hc h hv, zero hc' h' hv, Nat.cast_zero, zero_mul, zero_mul]
  · have hn : 0 < v.num.toNat := by
      have := Rat.num_nonneg.mpr h.nonneg
      have := Rat.num_ne_zero.mpr hv
      omega
    have hq : (v.num.toNat / v.den : ℚ) = v := by
      have hn : (v.num.toNat : ℚ) = v.num := by
        exact_mod_cast Int.toNat_of_nonneg (Rat.num_nonneg.mpr h.nonneg)
      rw [hn, Rat.num_div_den]
    rw [← hq] at h h'
    rw [← rational_aligned, ← rational_aligned, ← div_of_isInInterval hn v.den_pos hc h,
      ← div_of_isInInterval hn v.den_pos hc' h']

/-- What is not below zero is rounded to what is not below zero. -/
theorem IsNearest.toRat_nonneg (h : IsNearest v x) (hx : x.isFinite = true) (hv : 0 ≤ v) :
  0 ≤ toRat x
  := by
  by_contra hlt
  rw [not_le] at hlt
  have hle := h.le hx 0 isFinite_zero
  rw [toRat_zero, abs_sub_le_iff_of_gt hlt] at hle
  linarith

/-- What is not below zero lies in the rounding interval of the float that it is rounded to. -/
theorem IsNearest.exists_isInInterval (h : IsNearest v x) (hx : x.isFinite = true) (hv : 0 ≤ v) :
  ∃ m q, IsAligned m q ∧ toRat x = m * 2 ^ q ∧ IsInInterval m q v
  := by
  have hn := h.toRat_nonneg hx hv
  obtain ⟨-, -, ht⟩ | ⟨s, m, q, hm, hu, hc, ht⟩ := cases_of_isFinite hx
  · have ht : toRat x = (0 : Nat) * 2 ^ (-1074 : Int) := by rw [ht, Nat.cast_zero, zero_mul]
    refine ⟨0, -1074, isAligned_zero, ht, ?_⟩
    apply h.isInInterval hx ht (fun _ => rfl) isAligned_zero (by decide) hv
  · cases s with
    | negative =>
      rw [ht, withSign] at hn
      have hpos : (0 : ℚ) < m * 2 ^ q := by positivity
      linarith
    | positive =>
      refine ⟨m, q, hc.isAligned, ht, ?_⟩
      apply h.isInInterval hx ht _ hc.isAligned hc.exponent_le hv
      intro he
      apply he _ _ _ _ hu

/-- Floats that a number is rounded to stand for one number. -/
theorem IsNearest.toRat_eq (h : IsNearest v x) (h' : IsNearest v y) (hx : x.isFinite = true)
    (hy : y.isFinite = true) :
  toRat x = toRat y
  := by
  have nonneg {v : ℚ} {x y : Float} (h : IsNearest v x) (h' : IsNearest v y)
      (hx : x.isFinite = true) (hy : y.isFinite = true) (hv : 0 ≤ v) : toRat x = toRat y := by
    obtain ⟨m, q, hc, ht, hi⟩ := h.exists_isInInterval hx hv
    obtain ⟨m', q', hc', ht', hi'⟩ := h'.exists_isInInterval hy hv
    rw [ht, ht', hi.mul_zpow_eq hi' hc hc']
  obtain hv | hv := le_total 0 v
  · apply nonneg h h' hx hy hv
  · rw [← isFinite_neg] at hx hy
    have heq := nonneg h.neg h'.neg hx hy (neg_nonneg.mpr hv)
    rw [toRat_neg, toRat_neg] at heq
    apply neg_injective heq

/-- The less of two numbers is not rounded to the greater float. -/
theorem IsNearest.toRat_le (h : IsNearest v x) (h' : IsNearest w y) (hx : x.isFinite = true)
    (hy : y.isFinite = true) (hvw : v ≤ w) :
  toRat x ≤ toRat y
  := by
  by_contra hlt
  rw [not_le] at hlt
  -- both numbers would have to be in the middle between the floats
  have hv := (abs_sub_le_iff_of_lt hlt).mp (h.le hx y hy)
  have hw := (abs_sub_le_iff_of_gt hlt).mp (h'.le hy x hx)
  obtain rfl : v = w := by linarith
  exact hlt.ne (h'.toRat_eq h hy hx)

theorem overflow_pos :
  0 < overflow
  := sub_pos.mpr (pow_lt_pow_right₀ one_lt_two (by decide))

/-- A finite float is not too large. -/
theorem abs_toRat_lt_overflow (hx : x.isFinite = true) :
  |toRat x| < overflow
  := by
  have hlt {m : Nat} {q : Int} (hc : IsAligned m q) (hq : q ≤ 971) :
      (m * 2 ^ q : ℚ) < overflow := by
    rcases Nat.eq_zero_or_pos m with rfl | hm
    · rw [Nat.cast_zero, zero_mul]
      apply overflow_pos
    · apply (IsInInterval.self hm q).lt_overflow hc hq
  obtain ⟨m, q, hc, hq, ht⟩ := exists_toRat_eq hx
  have hn : (0 : ℚ) ≤ m * 2 ^ q := by positivity
  obtain ht | ht := ht
  · rw [ht, abs_of_nonneg hn]
    apply hlt hc hq
  · rw [ht, abs_neg, abs_of_nonneg hn]
    apply hlt hc hq

/-- What a finite float stands for is rounded to the float. -/
theorem isNearest_self (hx : x.isFinite = true) :
  IsNearest (toRat x) x
  := by
  constructor
  · exact iff_of_true hx (abs_toRat_lt_overflow hx)
  · intro _ y _
    rw [sub_self, abs_zero]
    apply abs_nonneg
  · intro _ y _ hne heq
    rw [sub_self, abs_zero, abs_eq_zero, sub_eq_zero] at heq
    exact absurd heq.symm hne

/-! ### Rounding -/

/-- Whether a float is one that a number is rounded to. Its sign is that of the number, unless the
float is zero. -/
structure Rounds (v : ℚ) (x : Float) : Prop where
  isNearest : IsNearest v x
  zero_le : 0 ≤ v → 0 ≤ x
  le_zero : v ≤ 0 → x ≤ 0

namespace Rounds

theorem isNaN (h : Rounds v x) :
  x.isNaN = false
  := by
  obtain hv | hv := le_total 0 v
  · exact (isNaN_of_le (h.zero_le hv)).2
  · exact (isNaN_of_le (h.le_zero hv)).1

/-- What is not rounded to a finite float is too large. -/
theorem overflow_le (h : Rounds v x) (hx : x.isFinite = false) :
  overflow ≤ v ∧ x.toModel.unpack = .infinity .positive
    ∨ v ≤ -overflow ∧ x.toModel.unpack = .infinity .negative
  := by
  obtain ⟨s, hs⟩ := exists_infinity h.isNaN hx
  have hle := (isNearest_of_infinity hs).mp h.isNearest
  obtain hv | hv := le_total 0 v
  · rw [abs_of_nonneg hv] at hle
    have hz := h.zero_le hv
    rw [le_iff_compare, hs] at hz
    cases s with
    | positive => exact .inl ⟨hle, hs⟩
    | negative => contradiction
  · rw [abs_of_nonpos hv] at hle
    have hz := h.le_zero hv
    rw [le_iff_compare, hs] at hz
    cases s with
    | positive => contradiction
    | negative => exact .inr ⟨by linarith, hs⟩

/-- Rounding is monotone. -/
theorem le (h : Rounds v x) (h' : Rounds w y) (hvw : v ≤ w) :
  x ≤ y
  := by
  cases hx : x.isFinite with
  | true =>
    cases hy : y.isFinite with
    | true =>
      rw [le_iff_toRat_le hx hy]
      apply h.isNearest.toRat_le h'.isNearest hx hy hvw
    | false =>
      obtain ⟨-, hy⟩ | ⟨hw, -⟩ := h'.overflow_le hy
      · apply le_infinity h.isNaN hy
      · have := (abs_lt.mp (h.isNearest.isFinite_iff.mp hx)).1
        linarith
  | false =>
    obtain ⟨hv, hx⟩ | ⟨-, hx⟩ := h.overflow_le hx
    · cases hy : y.isFinite with
      | true =>
        have := (abs_lt.mp (h'.isNearest.isFinite_iff.mp hy)).2
        linarith
      | false =>
        obtain ⟨-, hy⟩ | ⟨hw, -⟩ := h'.overflow_le hy
        · apply le_infinity h.isNaN hy
        · have := overflow_pos
          linarith
    · apply infinity_le hx h'.isNaN

/-- What a finite float stands for is rounded to what stands for the same. -/
theorem toRat_eq (h : Rounds v x) (hy : y.isFinite = true) (hv : toRat y = v) :
  x.isFinite = true ∧ toRat x = v
  := by
  subst hv
  have hx := h.isNearest.isFinite_iff.mpr (abs_toRat_lt_overflow hy)
  exact ⟨hx, h.isNearest.toRat_eq (isNearest_self hy) hx hy⟩

end Rounds

/-- Whether an operation rounds the values of a function and keeps the infinities. -/
structure Approximates (f : Float → Float) (g : ℚ → ℚ) : Prop where
  rounds : ∀ x : Float, x.isFinite = true → Rounds (g (toRat x)) (f x)
  infinity : ∀ (x : Float) (s : Sign), x.toModel.unpack = .infinity s → f x = x

/-- An operation that rounds the values of a monotone function is monotone. -/
theorem Approximates.le {f : Float → Float} {g : ℚ → ℚ} (h : Approximates f g) (hg : Monotone g)
    (hxy : x ≤ y) :
  f x ≤ f y
  := by
  obtain ⟨hx, hy⟩ := isNaN_of_le hxy
  have isNaN {z : Float} (hz : z.isNaN = false) : (f z).isNaN = false := by
    cases hf : z.isFinite with
    | true => apply (h.rounds z hf).isNaN
    | false =>
      obtain ⟨s, hs⟩ := exists_infinity hz hf
      rw [h.infinity z s hs]
      apply hz
  cases hxf : x.isFinite with
  | false =>
    obtain ⟨s, hs⟩ := exists_infinity hx hxf
    rw [h.infinity x s hs]
    cases s with
    | negative => apply infinity_le hs (isNaN hy)
    | positive =>
      rw [h.infinity y _ (eq_infinity_of_infinity_le hxy hs)]
      apply hxy
  | true =>
    cases hyf : y.isFinite with
    | false =>
      obtain ⟨s, hs⟩ := exists_infinity hy hyf
      rw [h.infinity y s hs]
      cases s with
      | positive => apply le_infinity (isNaN hx) hs
      | negative =>
        rw [h.infinity x _ (eq_infinity_of_le_infinity hxy hs)]
        apply hxy
    | true =>
      apply (h.rounds x hxf).le (h.rounds y hyf)
      apply hg
      apply (le_iff_toRat_le hxf hyf).mp hxy

end SliderCalculator.Number
