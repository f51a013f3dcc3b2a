import Mathlib.Tactic.FieldSimp
import SliderCalculator.Proofs.Number.Rounding

/-!
# Reading decimals

A decimal in the rounding interval of a float is read as that float. A power of ten with a
negative exponent is divided by, and bits are put behind the mantissa first, so many that
the quotient has as many bits as rounding needs.
-/

namespace SliderCalculator.Number

open Float.Model (Format UnpackedFloat totalExponent)
open Float.Model.UnpackedFloat

/-- A mantissa that nothing was cut off from. -/
theorem represents_exact (M : Nat) :
  Represents (.ofMantissaAndAccuracy M .exact) M
  := by
  constructor <;> simp [ExtendedMantissa.ofMantissaAndAccuracy, halves]

/-- A mantissa is what is left of a quotient when it is so of its multiple by the divisor. -/
theorem represents_of_mul {em : ExtendedMantissa} {a b : Nat} (hb : 0 < b)
    (hl : halves em * b ≤ 2 * a) (hu : 2 * a < (halves em + 1) * b)
    (hs : em.stickyBit = true ↔ halves em * b < 2 * a) :
  Represents em (a / b)
  := by
  have hb' : (0 : ℚ) < b := by exact_mod_cast hb
  constructor
  · rw [← mul_div_assoc, le_div_iff₀ hb']
    exact_mod_cast hl
  · rw [← mul_div_assoc, div_lt_iff₀ hb']
    exact_mod_cast hu
  · rw [hs, ← mul_div_assoc, lt_div_iff₀ hb']
    norm_cast

/-- What a division leaves of the quotient. -/
theorem represents_div (a : Nat) {b : Nat} (hb : 0 < b) :
  Represents (.ofMantissaAndAccuracy (a / b) (accuracyOfFraction (a % b) b)) (a / b)
  := by
  have ha := Nat.div_add_mod' a b
  have hr := Nat.mod_lt a hb
  rw [accuracyOfFraction]
  split
  case isTrue h =>
    apply represents_of_mul hb <;>
      simp [ExtendedMantissa.ofMantissaAndAccuracy, halves] <;> linarith
  case isFalse h =>
    have hpos := Nat.pos_of_ne_zero h
    cases hc : compare (2 * (a % b)) b with
    | lt =>
      rw [Nat.compare_eq_lt] at hc
      apply represents_of_mul hb <;>
        simp [ExtendedMantissa.ofMantissaAndAccuracy, halves] <;> linarith
    | eq =>
      rw [Nat.compare_eq_eq] at hc
      apply represents_of_mul hb <;>
        simp [ExtendedMantissa.ofMantissaAndAccuracy, halves] <;> linarith
    | gt =>
      rw [Nat.compare_eq_gt] at hc
      apply represents_of_mul hb <;>
        simp [ExtendedMantissa.ofMantissaAndAccuracy, halves] <;> linarith

/-! ### Quotients -/

variable {C D : Nat}

/-- A mantissa that is shifted before it is divided gives a quotient with as many bits as rounding
needs. -/
theorem le_targetExponent_div (hC : 0 < C) (hD : 0 < D) {d e : Int}
    (he : e = min d (Format.binary64.targetExponent ((C.log2 : Int) - D.log2 + d))) :
  e ≤ Format.binary64.targetExponent (totalExponent (C * 2 ^ (d - e).toNat / D) e)
  := by
  rw [targetExponent_eq] at he ⊢
  rw [totalExponent]
  rcases le_or_gt e (-1074) with h | h
  · omega
  · have hlog : 52 ≤ (C * 2 ^ (d - e).toNat / D).log2 := by
      have hpow : 2 ^ 52 ≤ C * 2 ^ (d - e).toNat / D := by
        rw [Nat.le_div_iff_mul_le hD]
        calc 2 ^ 52 * D
          _ ≤ 2 ^ 52 * 2 ^ (D.log2 + 1) := Nat.mul_le_mul_left _ Nat.lt_log2_self.le
          _ = 2 ^ (53 + D.log2) := by rw [← Nat.pow_add]; congr 1; omega
          _ ≤ 2 ^ (C.log2 + (d - e).toNat) := Nat.pow_le_pow_right Nat.two_pos (by omega)
          _ = 2 ^ C.log2 * 2 ^ (d - e).toNat := Nat.pow_add _ _ _
          _ ≤ C * 2 ^ (d - e).toNat :=
            Nat.mul_le_mul_right _ (Nat.log2_self_le (Nat.ne_of_gt hC))
      apply (Nat.le_log2 _).mpr hpow
      have := Nat.lt_of_lt_of_le (Nat.two_pow_pos 52) hpow
      omega
    omega

/-- Dividing mantissas with exponents leaves enough of the quotient to round it. -/
theorem divCore_eq (hC : 0 < C) (hD : 0 < D) (c d : Int) :
  ∃ M E acc w, divCore .binary64 C c D d = (M, E, acc)
    ∧ Represents (.ofMantissaAndAccuracy M acc) w
    ∧ E ≤ Format.binary64.targetExponent (totalExponent M E)
    ∧ w * 2 ^ E = C / D * 2 ^ (c - d)
  := by
  have ht : totalExponent C c - totalExponent D d = (C.log2 : Int) - D.log2 + (c - d) := by
    simp only [totalExponent]
    omega
  rw [divCore]
  simp only [ht, Nat.shiftLeft_eq]
  generalize he : min (c - d) (Format.binary64.targetExponent _) = e
  have hs : (((c - d - e).toNat : Nat) : Int) = c - d - e := by omega
  refine ⟨_, _, _, _, rfl, represents_div _ hD, le_targetExponent_div hC hD he.symm, ?_⟩
  push_cast
  rw [mul_div_right_comm, mul_assoc, two_pow_mul]
  omega

variable {m : Nat} {q : Int}

/-- A quotient in the rounding interval of a float is rounded to the float. -/
theorem div_of_isInInterval (hC : 0 < C) (hD : 0 < D) (hc : IsAligned m q)
    (hv : IsInInterval m q (C / D)) :
  div .binary64 (.finite .positive C 0 hC) (.finite .positive D 0 hD) = aligned m q
  := by
  obtain ⟨M, E, acc, w, he, hr, hle, hw⟩ := divCore_eq hC hD 0 0
  rw [sub_self, zpow_zero, mul_one] at hw
  rw [← hw] at hv
  unfold div
  dsimp only
  rw [he]
  apply roundWithAccuracy_of_isInInterval hr hle hc hv

/-- A product in the rounding interval of a float is rounded to the float. -/
theorem mul_of_isInInterval (hC : 0 < C) (hD : 0 < D) (hc : IsAligned m q)
    (hv : IsInInterval m q (C * D)) (h : 0 < C <<< 53) :
  mul .binary64 (.finite .positive (C <<< 53) (-53) h) (.finite .positive D 0 hD) = aligned m q
  := by
  unfold mul
  dsimp only
  rw [Nat.shiftLeft_eq]
  apply roundWithAccuracy_of_isInInterval (represents_exact _) _ hc
  · have hw : ((C * 2 ^ 53 * D : Nat) : ℚ) * 2 ^ (-53 + 0 : Int) = C * D := by
      push_cast
      norm_num
      ring
    rw [hw]
    apply hv
  · have hlog : 53 ≤ (C * 2 ^ 53 * D).log2 := by
      apply (Nat.le_log2 (by positivity)).mpr
      calc 2 ^ 53
        _ = 1 * 2 ^ 53 * 1 := rfl
        _ ≤ C * 2 ^ 53 * D := Nat.mul_le_mul (Nat.mul_le_mul_right _ hC) hD
    rw [targetExponent_eq, totalExponent]
    omega

/-! ### Powers of ten -/

/-- A number of the rounding interval of a float other than zero is not tiny. -/
theorem IsInInterval.le_of_pos {v : ℚ} (h : IsInInterval m q v) (hc : IsAligned m q) (hm : 0 < m) :
  2 ^ (-1075 : Int) ≤ v
  := by
  have hlower : (2 : ℚ) ≤ (RoundingInterval.of m q).lower := by
    have hn : 2 ≤ (RoundingInterval.of m q).lower := by
      have hle := le_lower_roundingInterval m q
      omega
    exact_mod_cast hn
  calc (2 : ℚ) ^ (-1075 : Int)
    _ ≤ 2 ^ (q - 1) := by
      apply zpow_le_zpow_right₀ one_le_two
      have := hc.le_exponent
      omega
    _ = 2 ^ 1 * 2 ^ (q - 2) := by
      symm
      apply two_pow_mul
      omega
    _ = 2 * 2 ^ (q - 2) := by rw [pow_one]
    _ ≤ (RoundingInterval.of m q).lower * 2 ^ (q - 2) := by
      apply mul_le_mul_of_nonneg_right hlower
      positivity
    _ ≤ v := h.le

theorem IsInInterval.pos {v : ℚ} (h : IsInInterval m q v) (hc : IsAligned m q) (hm : 0 < m) :
  0 < v
  := by
  apply lt_of_lt_of_le _ (h.le_of_pos hc hm)
  positivity

/-- The digits of a decimal in the interval of a float other than zero are not all zero. -/
theorem IsInInterval.coefficient_pos {S : Int} (h : IsInInterval m q (C * 10 ^ S))
    (hc : IsAligned m q) (hm : 0 < m) :
  0 < C
  := by
  have hp : (0 : ℚ) < 10 ^ S := by positivity
  have hC := pos_of_mul_pos_left (h.pos hc hm) hp.le
  exact_mod_cast hC

/-- A number of the rounding interval of a float is not huge. -/
theorem IsInInterval.lt_of_le {v : ℚ} (h : IsInInterval m q v) (hc : IsAligned m q) (hq : q ≤ 971) :
  v < 2 ^ (1024 : Int)
  := by
  calc v
    _ < 2 ^ (q + 53) := h.lt_zpow hc
    _ ≤ 2 ^ (1024 : Int) := by
      apply zpow_le_zpow_right₀ one_le_two
      omega

/-- A decimal that is not huge has a small exponent. -/
theorem le_of_mul_zpow_lt {S : Int} (hC : 0 < C) (h : (C : ℚ) * 10 ^ S < 2 ^ (1024 : Int)) :
  S ≤ 2 ^ 11
  := by
  by_contra hS
  apply not_le_of_gt h
  calc (2 : ℚ) ^ (1024 : Int)
    _ ≤ 2 ^ S := zpow_le_zpow_right₀ one_le_two (by omega)
    _ ≤ 10 ^ S := zpow_le_zpow_left₀ (by omega) two_pos.le (by norm_num)
    _ ≤ C * 10 ^ S := by
      apply le_mul_of_one_le_left (by positivity)
      exact_mod_cast hC

/-- A negative power of ten is at most that of two. -/
theorem ten_zpow_le {S : Int} (hS : S ≤ 0) :
  (10 : ℚ) ^ S ≤ 2 ^ S
  := by
  calc (10 : ℚ) ^ S
    _ = (10 ^ (-S))⁻¹ := by rw [zpow_neg, inv_inv]
    _ ≤ (2 ^ (-S))⁻¹ := by
      apply inv_anti₀ (by positivity)
      apply zpow_le_zpow_left₀ (by omega) two_pos.le (by norm_num)
    _ = 2 ^ S := by rw [zpow_neg, inv_inv]

/-- A decimal that is not tiny has an exponent that its digits make up for. -/
theorem le_of_le_mul_zpow {S : Int} (h : 2 ^ (-1075 : Int) ≤ (C : ℚ) * 10 ^ S) :
  -(2 ^ 11 + C.log2 : Int) ≤ S
  := by
  by_contra hS
  apply not_lt_of_ge h
  calc (C : ℚ) * 10 ^ S
    _ ≤ 2 ^ (C.log2 + 1) * 2 ^ S := by
      apply mul_le_mul _ (ten_zpow_le (by omega)) (by positivity) (by positivity)
      exact_mod_cast Nat.lt_log2_self.le
    _ = 2 ^ ((C.log2 : Int) + 1 + S) := by
      apply two_pow_mul
      omega
    _ < 2 ^ (-1075 : Int) := zpow_lt_zpow_right₀ one_lt_two (by omega)

/-- A decimal in the rounding interval of a float is read as the float, unless its exponent is so
large that the power of ten is not calculated. -/
theorem ofScientific_of_isInInterval {S : Int} (hS : S ≤ 2 ^ 11) (hc : IsAligned m q)
    (hv : IsInInterval m q (C * 10 ^ S)) :
  ofScientific .binary64 C S = aligned m q
  := by
  -- what is taken for zero lies in no other interval
  have zero (h : ¬ 2 ^ (-1075 : Int) ≤ (C : ℚ) * 10 ^ S) : .zero .positive = aligned m q := by
    have hm : m = 0 := Nat.eq_zero_of_not_pos fun hm => h (hv.le_of_pos hc hm)
    rw [hm, aligned_zero]
  rw [ofScientific]
  by_cases hC : C = 0
  · rw [dif_pos hC]
    apply zero
    rw [hC, Nat.cast_zero, zero_mul, not_le]
    positivity
  · rw [dif_neg hC, if_neg (not_lt_of_ge hS)]
    by_cases hlt : S < -(2 ^ Format.binary64.exponentBits + (C.log2 : Int))
    · rw [if_pos hlt]
      apply zero
      intro hge
      exact absurd (le_of_le_mul_zpow hge) (not_le_of_gt hlt)
    · rw [if_neg hlt]
      by_cases h : 0 ≤ S
      · have hS : (C : ℚ) * (10 ^ S.toNat : Nat) = C * 10 ^ S := by
          push_cast
          rw [← zpow_natCast, Int.toNat_of_nonneg h]
        rw [if_pos h]
        apply mul_of_isInInterval (Nat.pos_of_ne_zero hC) _ hc (hS ▸ hv)
      · have hS : (C : ℚ) / (10 ^ (-S).toNat : Nat) = C * 10 ^ S := by
          push_cast
          rw [← zpow_natCast, Int.toNat_of_nonneg (by omega), zpow_neg]
          field_simp
        rw [if_neg h]
        apply div_of_isInInterval (Nat.pos_of_ne_zero hC) _ hc (hS ▸ hv)

/-- A decimal in the rounding interval of a number that a float can have is read as the float. -/
theorem ofScientific_of_isCanonical {S : Int} (hc : IsCanonical m q)
    (hv : IsInInterval m q (C * 10 ^ S)) :
  ofScientific .binary64 C S = .finite .positive m q hc.pos
  := by
  have hC := hv.coefficient_pos hc.isAligned hc.pos
  have hS := le_of_mul_zpow_lt hC (hv.lt_of_le hc.isAligned hc.exponent_le)
  rw [ofScientific_of_isInInterval hS hc.isAligned hv, aligned_of_pos hc.pos]

end SliderCalculator.Number
