import SliderCalculator.Proofs.Number.Monotonicity

/-!
# Sums, products and quotients

The result of an operator on finite floats is what the exact result is rounded to: `rounds_add`,
`rounds_sub`, `rounds_mul` and `rounds_div`.
-/

namespace SliderCalculator.Number

open Float.Model (Format UnpackedFloat totalExponent)
open Float.Model.UnpackedFloat (Sign Accuracy ExtendedMantissa)

variable {m : Nat} {q : Int} {v w : ℚ} {x y : Float}

/-! ### Signs -/

/-- The sign of a product. -/
theorem withSign_mul (s t : Sign) (v w : ℚ) :
  withSign s v * withSign t w = withSign (s * t) (v * w)
  := by
  cases s <;> cases t
  · exact neg_mul_neg v w
  · exact neg_mul v w
  · exact mul_neg v w
  · rfl

/-- The sign of a quotient. -/
theorem withSign_div (s t : Sign) (v w : ℚ) :
  withSign s v / withSign t w = withSign (s / t) (v / w)
  := by
  cases s <;> cases t
  · exact neg_div_neg_eq v w
  · exact neg_div w v
  · exact div_neg v
  · rfl

/-- An integer with its sign. -/
theorem cast_apply (s : Sign) (n : Nat) :
  ((s.apply n : Int) : ℚ) = withSign s n
  := by
  cases s with
  | positive => exact Int.cast_natCast n
  | negative => exact (Int.cast_neg _).trans (congrArg _ (Int.cast_natCast n))

theorem withSign_mul_right (s : Sign) (v w : ℚ) :
  withSign s (v * w) = withSign s v * w
  := by
  cases s with
  | positive => rfl
  | negative => exact (neg_mul v w).symm

theorem neg_le_zero_iff :
  -x ≤ 0 ↔ 0 ≤ x
  := by
  rw [le_iff_compare, le_iff_compare, unpack_zero, unpack_neg]
  cases x.toModel.unpack with
  | notANumber => rfl
  | infinity s | zero s | finite s => cases s <;> rfl

theorem zero_le_neg_iff :
  0 ≤ -x ↔ x ≤ 0
  := by
  rw [← neg_le_zero_iff, double_neg]

/-- The negative of a number is rounded to the negative of the float. -/
theorem Rounds.neg (h : Rounds v x) :
  Rounds (-v) (-x)
  := by
  constructor
  · apply h.isNearest.neg
  · rw [neg_nonneg, zero_le_neg_iff]
    apply h.le_zero
  · rw [neg_nonpos, neg_le_zero_iff]
    apply h.zero_le

/-! ### Rounding and packing -/

theorem rounds_self (hx : x.isFinite = true) :
  Rounds (toRat x) x
  := by
  constructor
  · apply isNearest_self hx
  · apply (zero_le_iff_toRat_nonneg hx).mpr
  · apply (le_zero_iff_toRat_nonpos hx).mpr

/-- Zero is rounded to a zero of either sign. -/
theorem rounds_zero (s : Sign) :
  Rounds 0 (Float.ofModel (.pack (.zero s)))
  := by
  have hu : (Float.ofModel (.pack (.zero s))).toModel.unpack = .zero s := by
    cases s <;> rfl
  have ht : toRat (Float.ofModel (.pack (.zero s))) = 0 := by
    rw [toRat, hu, rational_zero]
  rw [← ht]
  apply rounds_self
  change (Float.ofModel (.pack (.zero s))).toModel.unpack.isFinite = true
  rw [hu]
  rfl

/-- A number is rounded to what is packed from the mantissa and the exponent in whose rounding
interval it lies. -/
theorem rounds_pack (hc : IsAligned m q) (hv : IsInInterval m q v) :
  Rounds v (Float.ofModel (.pack (aligned m q)))
  := by
  have hu := unpack_pack hc
  constructor
  · by_cases hq : q ≤ 971
    · rw [if_pos hq] at hu
      apply hv.isNearest hu hc hq
    · rw [if_neg hq] at hu
      rw [isNearest_of_infinity hu, abs_of_nonneg hv.nonneg, ← not_lt, hv.lt_overflow_iff hc]
      apply hq
  · intro _
    apply Number.zero_le
    rw [hu]
    split
    · rcases Nat.eq_zero_or_pos m with rfl | hm
      · rfl
      · rw [aligned_of_pos hm]
        rfl
    · rfl
  · intro hle
    have hm : m = 0 := by
      apply Nat.eq_zero_of_not_pos
      intro hm
      exact absurd (hv.pos hc hm) (not_lt_of_ge hle)
    rw [hm, aligned_zero]
    decide +kernel

/-- What is packed with the other sign is the negative float. -/
theorem pack_neg_aligned (hc : IsAligned m q) :
  Float.ofModel (.pack (aligned m q).neg) = -Float.ofModel (.pack (aligned m q))
  := by
  have hneg (x : Float) : -x = Float.ofModel (.pack x.toModel.unpack.neg) := rfl
  rw [hneg, unpack_pack hc]
  split
  · rfl
  case isFalse hq =>
    have hm := hc.pos_of_lt (lt_of_not_ge hq)
    rw [aligned_of_pos hm]
    exact congrArg Float.ofModel (pack_of_lt hm (lt_of_not_ge hq))

/-- The sign does not matter for rounding. -/
theorem roundWithAccuracy_negative (M : Nat) (E : Int) (acc : Accuracy) :
  UnpackedFloat.roundWithAccuracy .binary64 .negative M E acc
    = (UnpackedFloat.roundWithAccuracy .binary64 .positive M E acc).neg
  := by
  rw [UnpackedFloat.roundWithAccuracy, UnpackedFloat.roundWithAccuracy]
  dsimp only
  rw [apply_dite UnpackedFloat.neg]
  rfl

section Mantissa

variable {M : Nat} {E : Int}

/-- A number is rounded to what is packed from its rounded mantissa, if the exponent is low enough
for it. -/
theorem rounds_roundWithAccuracy (s : Sign) {acc : Accuracy}
    (hr : Represents (.ofMantissaAndAccuracy M acc) w)
    (hE : E ≤ Format.binary64.targetExponent (totalExponent M E)) :
  Rounds (withSign s (w * 2 ^ E))
    (Float.ofModel (.pack (.roundWithAccuracy .binary64 s M E acc)))
  := by
  have hw : 0 ≤ w := M.cast_nonneg.trans hr.mantissa_le.1
  have hv : 0 ≤ w * 2 ^ E := by positivity
  obtain ⟨m, q, hc, hi⟩ := exists_isInInterval hv
  have hround := roundWithAccuracy_of_isInInterval hr hE hc hi
  have h := rounds_pack hc hi
  cases s with
  | positive =>
    rw [hround]
    apply h
  | negative =>
    rw [roundWithAccuracy_negative, hround, pack_neg_aligned hc]
    apply h.neg

theorem log2_mul_two_pow (hM : 0 < M) (k : Nat) :
  (M * 2 ^ k).log2 = M.log2 + k
  := by
  induction k with
  | zero => rw [Nat.pow_zero, Nat.mul_one, Nat.add_zero]
  | succ k ih =>
    have hk : M * 2 ^ (k + 1) = 2 * (M * 2 ^ k) := by ring
    rw [hk, Nat.log2_two_mul (by positivity), ih, Nat.add_assoc]

/-- A mantissa that nothing was cut off from is rounded, whatever its exponent. -/
theorem rounds_round (s : Sign) (hM : 0 < M) (E : Int) :
  Rounds (withSign s (M * 2 ^ E)) (Float.ofModel (.pack (.round .binary64 s M E)))
  := by
  rw [UnpackedFloat.round, UnpackedFloat.decreaseExponent, Nat.shiftLeft_eq]
  generalize hT : Format.binary64.targetExponent (totalExponent M E) = T
  dsimp only
  generalize hk : (E - T).toNat = k
  have hw : (M * 2 ^ E : ℚ) = (M * 2 ^ k : Nat) * 2 ^ (E - k) := by
    push_cast
    rw [mul_assoc, two_pow_mul]
    omega
  rw [hw]
  apply rounds_roundWithAccuracy s (represents_exact _)
  have ht : totalExponent (M * 2 ^ k) (E - k) = totalExponent M E := by
    simp only [totalExponent]
    rw [log2_mul_two_pow hM]
    omega
  rw [ht, hT]
  omega

/-- A mantissa with a sign is rounded, whatever its exponent. -/
theorem rounds_normalize (M E : Int) :
  Rounds (M * 2 ^ E) (Float.ofModel (.pack (.normalize .binary64 M E .positive)))
  := by
  rw [UnpackedFloat.normalize]
  split
  next h =>
    rw [Int.compare_eq_lt] at h
    have hM : (M : ℚ) = -((-M).toNat : ℚ) := by
      have hM : M = -((-M).toNat : Int) := by omega
      exact_mod_cast congrArg (Int.cast : Int → ℚ) hM
    rw [hM, neg_mul]
    apply rounds_round .negative
    omega
  next h =>
    rw [Int.compare_eq_eq] at h
    rw [h, Int.cast_zero, zero_mul]
    apply rounds_zero
  next h =>
    rw [Int.compare_eq_gt] at h
    have hM : (M : ℚ) = (M.toNat : ℚ) := by
      have hM : M = (M.toNat : Int) := by omega
      exact_mod_cast congrArg (Int.cast : Int → ℚ) hM
    rw [hM]
    apply rounds_round .positive
    omega

end Mantissa

/-! ### Operators -/

/-- Decreasing the exponent does not change the number. -/
theorem withSign_decreaseExponent (s : Sign) {m : Nat} {q r : Int} (hr : r ≤ q) :
  ((s.apply (UnpackedFloat.decreaseExponent m q r).1 : Int) * 2 ^ r : ℚ) = withSign s (m * 2 ^ q)
  := by
  rw [cast_apply, ← withSign_mul_right, UnpackedFloat.decreaseExponent]
  dsimp only
  rw [Nat.shiftLeft_eq]
  push_cast
  rw [mul_assoc, two_pow_mul]
  omega

/-- A sum is rounded. -/
theorem rounds_add (hx : x.isFinite = true) (hy : y.isFinite = true) :
  Rounds (toRat x + toRat y) (x + y)
  := by
  have hadd : x + y
      = Float.ofModel (.pack (.add .binary64 x.toModel.unpack y.toModel.unpack)) := rfl
  rw [hadd]
  obtain ⟨s, hu, htx⟩ | ⟨s, m, q, hm, hu, -, htx⟩ := cases_of_isFinite hx
  · obtain ⟨t, hv, hty⟩ | ⟨t, n, r, hn, hv, -, -⟩ := cases_of_isFinite hy
    · rw [hu, hv, htx, hty, add_zero]
      cases s <;> cases t <;> apply rounds_zero
    · have hz : UnpackedFloat.add .binary64 x.toModel.unpack y.toModel.unpack
          = y.toModel.unpack := by
        rw [hu, hv]
        rfl
      rw [hz, ofModel_pack_unpack, htx, zero_add]
      apply rounds_self hy
  · obtain ⟨t, hv, hty⟩ | ⟨t, n, r, hn, hv, -, hty⟩ := cases_of_isFinite hy
    · have hz : UnpackedFloat.add .binary64 x.toModel.unpack y.toModel.unpack
          = x.toModel.unpack := by
        rw [hu, hv]
        rfl
      rw [hz, ofModel_pack_unpack, hty, add_zero]
      apply rounds_self hx
    · rw [htx, hty, ← withSign_decreaseExponent s (min_le_left q r),
        ← withSign_decreaseExponent t (min_le_right q r), ← add_mul, ← Int.cast_add, hu, hv]
      apply rounds_normalize

/-- Subtracting is adding the negative. -/
theorem sub_eq_add_opposite (x y : Float) :
  x - y = x + -y
  := by
  have hsub (u v : UnpackedFloat) :
      UnpackedFloat.sub .binary64 u v = UnpackedFloat.add .binary64 u v.neg := by
    cases u with
    | notANumber => rfl
    | infinity s | zero s => cases v <;> rfl
    | finite s m q hm =>
      cases v with
      | notANumber | infinity t | zero t => rfl
      | finite t n r hn =>
        cases t with
        | positive => rfl
        | negative =>
          have h (a b : Int) : a - -b = a + b := sub_neg_eq_add a b
          exact congrArg (UnpackedFloat.normalize .binary64 · (min q r) .positive) (h _ _)
  change Float.ofModel (.pack (.sub .binary64 x.toModel.unpack y.toModel.unpack))
    = Float.ofModel (.pack (.add .binary64 x.toModel.unpack (-y).toModel.unpack))
  rw [hsub, unpack_neg]

/-- A difference is rounded. -/
theorem rounds_sub (hx : x.isFinite = true) (hy : y.isFinite = true) :
  Rounds (toRat x - toRat y) (x - y)
  := by
  rw [sub_eq_add_neg, ← toRat_neg, sub_eq_add_opposite]
  apply rounds_add hx
  rw [isFinite_neg]
  apply hy

/-- A product of mantissas has as many bits as rounding needs, or the exponents are the least. -/
theorem le_targetExponent_mul {m n : Nat} {q r : Int} (hc : IsCanonical m q)
    (hc' : IsCanonical n r) :
  q + r ≤ Format.binary64.targetExponent (totalExponent (m * n) (q + r))
  := by
  rw [targetExponent_eq, totalExponent]
  have hlog (h : 2 ^ 52 ≤ m * n) : 52 ≤ (m * n).log2 := (Nat.le_log2 (by omega)).mpr h
  obtain rfl | hm := hc.eq_or_le
  · obtain rfl | hn := hc'.eq_or_le
    · omega
    · have := hlog (hn.trans (Nat.le_mul_of_pos_left n hc.pos))
      omega
  · have := hlog (hm.trans (Nat.le_mul_of_pos_right m hc'.pos))
    omega

/-- A product is rounded. -/
theorem rounds_mul (hx : x.isFinite = true) (hy : y.isFinite = true) :
  Rounds (toRat x * toRat y) (x * y)
  := by
  have hmul : x * y
      = Float.ofModel (.pack (.mul .binary64 x.toModel.unpack y.toModel.unpack)) := rfl
  rw [hmul]
  obtain ⟨s, hu, htx⟩ | ⟨s, m, q, hm, hu, hc, htx⟩ := cases_of_isFinite hx
  · rw [htx, zero_mul, hu]
    obtain ⟨t, hv, -⟩ | ⟨t, n, r, hn, hv, -, -⟩ := cases_of_isFinite hy <;>
    · rw [hv]
      apply rounds_zero
  · obtain ⟨t, hv, hty⟩ | ⟨t, n, r, hn, hv, hc', hty⟩ := cases_of_isFinite hy
    · rw [hty, mul_zero, hu, hv]
      apply rounds_zero
    · have hw : (m * 2 ^ q * (n * 2 ^ r) : ℚ) = (m * n : Nat) * 2 ^ (q + r) := by
        push_cast
        rw [← two_zpow_mul rfl]
        ring
      rw [htx, hty, withSign_mul, hw, hu, hv]
      apply rounds_roundWithAccuracy _ (represents_exact _) (le_targetExponent_mul hc hc')

/-- A quotient is rounded. -/
theorem rounds_div (hx : x.isFinite = true) (hy : y.isFinite = true) (h0 : toRat y ≠ 0) :
  Rounds (toRat x / toRat y) (x / y)
  := by
  have hdiv : x / y
      = Float.ofModel (.pack (.div .binary64 x.toModel.unpack y.toModel.unpack)) := rfl
  rw [hdiv]
  obtain ⟨t, -, hty⟩ | ⟨t, n, r, hn, hv, -, hty⟩ := cases_of_isFinite hy
  · contradiction
  · obtain ⟨s, hu, htx⟩ | ⟨s, m, q, hm, hu, -, htx⟩ := cases_of_isFinite hx
    · rw [htx, zero_div, hu, hv]
      apply rounds_zero
    · obtain ⟨M, E, acc, w, he, hr, hle, hw⟩ := divCore_eq hm hn q r
      have hw' : (m * 2 ^ q / (n * 2 ^ r) : ℚ) = w * 2 ^ E := by
        rw [hw, zpow_sub₀ two_ne_zero]
        field_simp
      rw [htx, hty, withSign_div, hw', hu, hv]
      unfold UnpackedFloat.div
      dsimp only
      rw [he]
      apply rounds_roundWithAccuracy _ hr hle

/-! ### Operators with a fixed operand -/

/-- What keeps an infinity when it is unpacked keeps it as a float. -/
theorem pack_of_infinity (f : UnpackedFloat → UnpackedFloat) {s : Sign}
    (hx : x.toModel.unpack = .infinity s) (hf : f (.infinity s) = .infinity s) :
  Float.ofModel (.pack (f x.toModel.unpack)) = x
  := by
  rw [hx, hf, ← hx, ofModel_pack_unpack]

/-- A float above zero has a positive sign. -/
theorem exists_unpack_of_pos (h : 0 < toRat y) :
  ∃ m q hm, y.toModel.unpack = .finite .positive m q hm
  := by
  rw [toRat] at h
  cases hu : y.toModel.unpack with
  | notANumber | infinity s =>
    rw [hu] at h
    exact absurd h (lt_irrefl 0)
  | zero s =>
    rw [hu, rational_zero] at h
    exact absurd h (lt_irrefl 0)
  | finite s m q hm =>
    cases s with
    | positive => exact ⟨m, q, hm, rfl⟩
    | negative =>
      rw [hu, rational_finite, withSign] at h
      have : (0 : ℚ) < m * 2 ^ q := by positivity
      linarith

section Fixed

variable (hy : y.isFinite = true)

include hy

theorem approximates_add :
  Approximates (y + ·) (toRat y + ·)
  := by
  constructor
  · intro x hx
    apply rounds_add hy hx
  · intro x s hs
    apply pack_of_infinity (UnpackedFloat.add .binary64 y.toModel.unpack) hs
    obtain ⟨t, hv, -⟩ | ⟨t, n, r, hn, hv, -, -⟩ := cases_of_isFinite hy <;>
    · rw [hv]
      rfl

theorem approximates_sub :
  Approximates (· - y) (· - toRat y)
  := by
  constructor
  · intro x hx
    apply rounds_sub hx hy
  · intro x s hs
    apply pack_of_infinity (UnpackedFloat.sub .binary64 · y.toModel.unpack) hs
    obtain ⟨t, hv, -⟩ | ⟨t, n, r, hn, hv, -, -⟩ := cases_of_isFinite hy <;>
    · rw [hv]
      rfl

variable (hpos : 0 < toRat y)

include hpos

theorem approximates_mul :
  Approximates (· * y) (· * toRat y)
  := by
  constructor
  · intro x hx
    apply rounds_mul hx hy
  · intro x s hs
    apply pack_of_infinity (UnpackedFloat.mul .binary64 · y.toModel.unpack) hs
    obtain ⟨m, q, hm, hv⟩ := exists_unpack_of_pos hpos
    rw [hv]
    cases s <;> rfl

theorem approximates_div :
  Approximates (· / y) (· / toRat y)
  := by
  constructor
  · intro x hx
    apply rounds_div hx hy hpos.ne'
  · intro x s hs
    apply pack_of_infinity (UnpackedFloat.div .binary64 · y.toModel.unpack) hs
    obtain ⟨m, q, hm, hv⟩ := exists_unpack_of_pos hpos
    rw [hv]
    cases s <;> rfl

end Fixed

end SliderCalculator.Number
