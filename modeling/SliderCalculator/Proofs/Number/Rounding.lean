import Mathlib.Algebra.Order.Field.Power
import Mathlib.Tactic.Linarith
import Mathlib.Tactic.Ring
import SliderCalculator.Number.Shortest
import SliderCalculator.Proofs.Number.Unpacking

/-!
# Rounding

A mantissa that bits have been cut off from still tells the number that it was cut from
well enough to round it: by the first bit that was cut off and by whether any other one was
set. Rounding a number of the rounding interval of a float gives that float.
-/

namespace SliderCalculator.Number

open Float.Model (Format UnpackedFloat totalExponent)
open Float.Model.UnpackedFloat

/-! ### Powers of two -/

theorem two_zpow_mul {a b c : Int} (h : a + b = c) :
  (2 : ℚ) ^ a * 2 ^ b = 2 ^ c
  := by
  rw [← zpow_add₀ two_ne_zero, h]

theorem two_pow_mul {n : Nat} {b c : Int} (h : n + b = c) :
  (2 : ℚ) ^ n * 2 ^ b = 2 ^ c
  := by
  rw [← zpow_natCast]
  apply two_zpow_mul h

/-! ### Cutting off bits -/

/-- The bits of a mantissa and the first one that was cut off. -/
def halves (em : ExtendedMantissa) : Nat :=
  2 * em.mantissa + em.roundBit.toNat

/-- Whether a mantissa is what is left of a number. -/
structure Represents (em : ExtendedMantissa) (w : ℚ) : Prop where
  le : (halves em : ℚ) ≤ 2 * w
  lt : 2 * w < halves em + 1
  sticky : em.stickyBit = true ↔ (halves em : ℚ) < 2 * w

/-- Whether the natural number nearest to a rational is `k`, where halfway between two it
is the even one. -/
structure RoundsTo (w : ℚ) (k : Nat) : Prop where
  le : (2 * k - 1 : ℚ) ≤ 2 * w
  ge : 2 * w ≤ (2 * k + 1 : ℚ)
  odd : k % 2 = 1 → (2 * k - 1 : ℚ) < 2 * w ∧ 2 * w < (2 * k + 1 : ℚ)

namespace Represents

variable {em : ExtendedMantissa} {w : ℚ}

/-- Cutting off one more bit halves the number. -/
theorem shiftRightOne (h : Represents em w) :
  Represents em.shiftRightOne (w / 2)
  := by
  obtain ⟨m, r, s⟩ := em
  obtain ⟨hl, hu, hs⟩ := h
  have hm : halves (ExtendedMantissa.shiftRightOne ⟨m, r, s⟩) = m := by
    have hb : (m % 2 != 0).toNat = m % 2 := by
      obtain h | h := Nat.mod_two_eq_zero_or_one m <;> rw [h] <;> rfl
    simp only [halves, ExtendedMantissa.shiftRightOne, hb]
    omega
  have hw : 2 * (w / 2) = w := by ring
  simp only [halves] at hl hu hs
  push_cast at hl hu hs
  constructor
  · rw [hm, hw]
    cases r <;> norm_num at hl <;> linarith
  · rw [hm, hw]
    cases r <;> norm_num at hu <;> linarith
  · rw [hm, hw]
    cases r with
    | false =>
      simp only [ExtendedMantissa.shiftRightOne, Bool.false_or, hs]
      norm_num
    | true =>
      norm_num at hl
      simp only [ExtendedMantissa.shiftRightOne, Bool.true_or, true_iff]
      linarith

/-- Cutting off several more bits. -/
theorem shiftRight (h : Represents em w) (n : Nat) :
  Represents (em >>> n) (w / 2 ^ n)
  := by
  induction n with
  | zero =>
    rw [pow_zero, div_one]
    apply h
  | succ n ih =>
    have hw : w / 2 ^ (n + 1) = w / 2 ^ n / 2 := by ring
    rw [hw]
    apply ih.shiftRightOne

/-- A mantissa is rounded to the natural number nearest to what it was cut from. -/
theorem roundedMantissa_eq (h : Represents em w) {k : Nat} (hk : RoundsTo w k) :
  em.roundedMantissa = k
  := by
  obtain ⟨m, r, s⟩ := em
  obtain ⟨hl, hu, hs⟩ := h
  obtain ⟨kl, ku, ko⟩ := hk
  simp only [halves] at hl hu hs
  push_cast at hl hu hs
  cases r <;> cases s <;> norm_num at hl hu hs
  · -- the number is the mantissa
    have h₁ : (2 * k : ℚ) ≤ 2 * m + 1 := by linarith
    have h₂ : (2 * m : ℚ) ≤ 2 * k + 1 := by linarith
    norm_cast at h₁ h₂
    change m = k
    omega
  · -- it is above the mantissa by less than a half
    have h₁ : (2 * k : ℚ) < 2 * m + 2 := by linarith
    have h₂ : (2 * m : ℚ) < 2 * k + 1 := by linarith
    norm_cast at h₁ h₂
    change m = k
    omega
  · -- it is above the mantissa by a half
    have h₁ : (2 * k : ℚ) ≤ 2 * m + 2 := by linarith
    have h₂ : (2 * m : ℚ) ≤ 2 * k := by linarith
    have hk : k % 2 = 1 → (2 * k : ℚ) < 2 * m + 2 ∧ (2 * m : ℚ) < 2 * k := by
      intro hk
      obtain ⟨h₁, h₂⟩ := ko hk
      constructor <;> linarith
    norm_cast at h₁ h₂ hk
    change m + m % 2 = k
    omega
  · -- it is above the mantissa by more than a half
    have h₁ : (2 * k : ℚ) < 2 * m + 3 := by linarith
    have h₂ : (2 * m : ℚ) < 2 * k := by linarith
    norm_cast at h₁ h₂
    change m + 1 = k
    omega

end Represents

/-! ### The rounding interval -/

/-- The interval of a float reaches down by two quarters of a last place at most. -/
theorem le_lower_roundingInterval (m : Nat) (q : Int) :
  4 * m ≤ (RoundingInterval.of m q).lower + 2
  := by
  simp only [RoundingInterval.of]
  split <;> omega

/-- It reaches up by two quarters. -/
theorem upper_roundingInterval (m : Nat) (q : Int) :
  (RoundingInterval.of m q).upper = 4 * m + 2
  := rfl

/-- Whether a number lies in the rounding interval of the float `m * 2 ^ q`. -/
structure IsInInterval (m : Nat) (q : Int) (v : ℚ) : Prop where
  le : (RoundingInterval.of m q).lower * 2 ^ (q - 2) ≤ v
  ge : v ≤ (RoundingInterval.of m q).upper * 2 ^ (q - 2)
  odd : m % 2 = 1 →
    (RoundingInterval.of m q).lower * 2 ^ (q - 2) < v
      ∧ v < (RoundingInterval.of m q).upper * 2 ^ (q - 2)

/-! ### The grid of floats -/

/-- Whether `m * 2 ^ q` is zero or what a positive float with that mantissa and exponent would be if
floats could be of any size. -/
structure IsAligned (m : Nat) (q : Int) : Prop where
  lt : m < 2 ^ 53
  le_exponent : -1074 ≤ q
  eq_or_le : q = -1074 ∨ 2 ^ 52 ≤ m

theorem IsCanonical.isAligned {m : Nat} {q : Int} (h : IsCanonical m q) :
  IsAligned m q
  := ⟨h.lt, h.le_exponent, h.eq_or_le⟩

/-- Zero has the least exponent. -/
theorem isAligned_zero :
  IsAligned 0 (-1074)
  := ⟨by decide, le_refl _, .inl rfl⟩

/-- The unpacked float with a mantissa and an exponent, without a sign. -/
def aligned (m : Nat) (q : Int) : UnpackedFloat :=
  if hm : 0 < m then .finite .positive m q hm else .zero .positive

theorem aligned_of_pos {m : Nat} {q : Int} (hm : 0 < m) :
  aligned m q = .finite .positive m q hm
  := dif_pos hm

theorem aligned_zero (q : Int) :
  aligned 0 q = .zero .positive
  := rfl

theorem targetExponent_eq (e : Int) :
  Format.binary64.targetExponent e = max (e - 53) (-1074)
  := rfl

/-- Rounding a mantissa to an exponent that is low enough for it, when no bit is cut off by
the rounding proper. -/
theorem roundWithAccuracy_eq {M : Nat} {E T : Int} {acc : Accuracy} {w : ℚ} {k : Nat}
    (hT : Format.binary64.targetExponent (totalExponent M E) = T) (hE : E ≤ T)
    (hr : Represents (.ofMantissaAndAccuracy M acc) w)
    (hk : RoundsTo (w * 2 ^ (E - T)) k) {m : Nat} {q : Int}
    (hs : shiftToTargetExponent .binary64 k T .exact = (⟨m, false, false⟩, q)) :
  roundWithAccuracy .binary64 .positive M E acc = aligned m q
  := by
  have he : E + ((T - E).toNat : Int) = T := by omega
  have hw : w / 2 ^ (T - E).toNat = w * 2 ^ (E - T) := by
    rw [div_eq_mul_inv, ← zpow_natCast, ← zpow_neg]
    congr 2
    omega
  have hem := (hr.shiftRight (T - E).toNat).roundedMantissa_eq (hw ▸ hk)
  rw [roundWithAccuracy, shiftToTargetExponent, hT, shiftToExponent]
  dsimp only
  rw [he, hem, hs]
  rcases Nat.eq_zero_or_pos m with rfl | hm
  · rfl
  · rw [dif_neg (Nat.ne_of_gt hm), aligned_of_pos hm]

/-- A mantissa that has the bits that it should have is shifted no further. -/
theorem shiftToTargetExponent_eq {m : Nat} {q : Int} (hc : IsAligned m q) :
  shiftToTargetExponent .binary64 m q .exact = (⟨m, false, false⟩, q)
  := by
  obtain ⟨hlt, hq, hm⟩ := hc
  have hl : m.log2 < 53 := by
    rcases Nat.eq_zero_or_pos m with rfl | hpos
    · decide
    · exact (Nat.log2_lt (Nat.ne_of_gt hpos)).mpr hlt
  have hT : Format.binary64.targetExponent (totalExponent m q) = q := by
    rw [targetExponent_eq, totalExponent]
    obtain rfl | hm := hm
    · omega
    · have hg : 52 ≤ m.log2 := (Nat.le_log2 (by omega)).mpr hm
      omega
  have h0 : (q - q).toNat = 0 := by omega
  rw [shiftToTargetExponent, hT, shiftToExponent]
  simp only [h0]
  have hq : q + ((0 : Nat) : Int) = q := by omega
  rw [hq]
  rfl

/-- A mantissa that rounding made too long by one bit is shifted once. -/
theorem shiftToTargetExponent_succ {q : Int} (hq : -1074 < q) :
  shiftToTargetExponent .binary64 (2 ^ 53) (q - 1) .exact = (⟨2 ^ 52, false, false⟩, q)
  := by
  have hT : Format.binary64.targetExponent (totalExponent (2 ^ 53) (q - 1)) = q := by
    rw [targetExponent_eq, totalExponent, Nat.log2_two_pow]
    omega
  have h1 : (q - (q - 1)).toNat = 1 := by omega
  rw [shiftToTargetExponent, hT, shiftToExponent]
  simp only [h1]
  have hq : q - 1 + ((1 : Nat) : Int) = q := by omega
  rw [hq]
  rfl

namespace IsInInterval

variable {m : Nat} {q : Int} {v : ℚ}

/-- The interval in quarters of the last place of the float. -/
theorem quarters (h : IsInInterval m q v) :
  (RoundingInterval.of m q).lower ≤ v * 2 ^ (2 - q)
    ∧ v * 2 ^ (2 - q) ≤ (RoundingInterval.of m q).upper
    ∧ (m % 2 = 1 → (RoundingInterval.of m q).lower < v * 2 ^ (2 - q)
      ∧ v * 2 ^ (2 - q) < (RoundingInterval.of m q).upper)
  := by
  obtain ⟨hl, hu, ho⟩ := h
  have hp : (0 : ℚ) < 2 ^ (2 - q) := by positivity
  have hq : q - 2 = -(2 - q) := by ring
  simp only [hq, zpow_neg, ← div_eq_mul_inv] at hl hu ho
  rw [div_le_iff₀ hp] at hl
  rw [le_div_iff₀ hp] at hu
  simp only [div_lt_iff₀ hp, lt_div_iff₀ hp] at ho
  exact ⟨hl, hu, ho⟩

theorem lt_zpow (h : IsInInterval m q v) (hc : IsAligned m q) :
  v < 2 ^ (q + 53)
  := by
  have hm : ((RoundingInterval.of m q).upper : ℚ) < 2 ^ 55 := by
    have hlt := hc.lt
    have hu : (RoundingInterval.of m q).upper < 2 ^ 55 := by
      rw [upper_roundingInterval]
      omega
    exact_mod_cast hu
  calc v
    _ ≤ (RoundingInterval.of m q).upper * 2 ^ (q - 2) := h.ge
    _ < 2 ^ 55 * 2 ^ (q - 2) := by
      apply mul_lt_mul_of_pos_right hm
      positivity
    _ = 2 ^ (q + 53) := by
      apply two_pow_mul
      omega

/-- A number of the interval rounds to the mantissa. -/
theorem roundsTo (h : IsInInterval m q v) :
  RoundsTo (v * 2 ^ (-q)) m
  := by
  have hw : v * 2 ^ (-q) = v * 2 ^ (2 - q) / 4 := by
    have hq : 2 - q = -q + 2 := by ring
    rw [hq, zpow_add₀ two_ne_zero]
    norm_num
    ring
  obtain ⟨hl, hu, ho⟩ := h.quarters
  have hlower : (4 * m : ℚ) ≤ (RoundingInterval.of m q).lower + 2 := by
    exact_mod_cast le_lower_roundingInterval m q
  have hupper : ((RoundingInterval.of m q).upper : ℚ) = 4 * m + 2 := by
    exact_mod_cast upper_roundingInterval m q
  rw [hw]
  constructor
  · linarith
  · linarith
  · intro hm
    obtain ⟨hl, hu⟩ := ho hm
    constructor <;> linarith

/-- A number of the interval below all mantissas with all bits. The interval of the least
of these mantissas reaches down to there. -/
theorem roundsTo_of_lt (h : IsInInterval m q v) (hc : IsAligned m q) (hq : q ≠ -1074)
    (hv : v < 2 ^ (q + 52)) :
  m = 2 ^ 52 ∧ 2 ^ (q + 51) ≤ v ∧ RoundsTo (v * 2 ^ (1 - q)) (2 ^ 53)
  := by
  have hw : v * 2 ^ (1 - q) = v * 2 ^ (2 - q) / 2 := by
    have hq : 2 - q = 1 - q + 1 := by ring
    rw [hq, zpow_add₀ two_ne_zero, zpow_one]
    ring
  have hu : v * 2 ^ (2 - q) < 2 ^ 54 := by
    have hp : (0 : ℚ) < 2 ^ (2 - q) := by positivity
    calc v * 2 ^ (2 - q)
      _ < 2 ^ (q + 52) * 2 ^ (2 - q) := mul_lt_mul_of_pos_right hv hp
      _ = 2 ^ ((54 : Nat) : Int) := by
        apply two_zpow_mul
        omega
      _ = 2 ^ 54 := zpow_natCast _ _
  obtain ⟨hl, -, -⟩ := h.quarters
  have hlt : (RoundingInterval.of m q).lower < 2 ^ 54 := by
    have hlt : ((RoundingInterval.of m q).lower : ℚ) < 2 ^ 54 := lt_of_le_of_lt hl hu
    exact_mod_cast hlt
  have hm : m = 2 ^ 52 := by
    have hge := hc.eq_or_le
    have hle := le_lower_roundingInterval m q
    omega
  have hlower : (RoundingInterval.of m q).lower = 2 ^ 54 - 1 := by
    have hif : m = RoundingInterval.leastMantissa ∧ RoundingInterval.leastExponent < q :=
      ⟨hm, lt_of_le_of_ne hc.le_exponent (Ne.symm hq)⟩
    simp only [RoundingInterval.of, if_pos hif]
    omega
  rw [hlower] at hl
  norm_num at hl
  refine ⟨hm, ?_, ?_⟩
  · have hp : (0 : ℚ) < 2 ^ (2 - q) := by positivity
    apply le_of_mul_le_mul_right _ hp
    calc (2 : ℚ) ^ (q + 51) * 2 ^ (2 - q)
      _ = 2 ^ ((53 : Nat) : Int) := by
        apply two_zpow_mul
        omega
      _ ≤ v * 2 ^ (2 - q) := by
        rw [zpow_natCast]
        norm_num
        linarith
  · rw [hw]
    norm_num at hu
    constructor
    · norm_num
      linarith
    · norm_num
      linarith
    · norm_num

end IsInInterval

namespace Represents

variable {M : Nat} {acc : Accuracy} {w : ℚ}

/-- A number that a mantissa was cut from lies above it by less than one. -/
theorem mantissa_le (h : Represents (.ofMantissaAndAccuracy M acc) w) :
  (M : ℚ) ≤ w ∧ w < M + 1
  := by
  obtain ⟨hl, hu, -⟩ := h
  cases acc with
  | exact =>
    simp only [halves, ExtendedMantissa.ofMantissaAndAccuracy] at hl hu
    norm_num at hl hu
    constructor <;> linarith
  | inexact o =>
    cases o <;>
    · simp only [halves, ExtendedMantissa.ofMantissaAndAccuracy] at hl hu
      norm_num at hl hu
      constructor <;> linarith

variable {E p : Int}

/-- The mantissa has a bit for every power of two up to the number. -/
theorem le_log2_add (h : Represents (.ofMantissaAndAccuracy M acc) w) (hp : 2 ^ p ≤ w * 2 ^ E) :
  p ≤ M.log2 + E
  := by
  have hlog : (M : ℚ) + 1 ≤ 2 ^ (M.log2 + 1) := by exact_mod_cast Nat.lt_log2_self
  have hlt : (2 : ℚ) ^ p < 2 ^ ((M.log2 : Int) + 1 + E) := by
    calc (2 : ℚ) ^ p
      _ ≤ w * 2 ^ E := hp
      _ < 2 ^ (M.log2 + 1) * 2 ^ E := by
        apply mul_lt_mul_of_pos_right
        · linarith [h.mantissa_le.2]
        · positivity
      _ = 2 ^ ((M.log2 : Int) + 1 + E) := by
        apply two_pow_mul
        omega
  have hlt := (zpow_lt_zpow_iff_right₀ one_lt_two).mp hlt
  omega

/-- It has no bit for a power of two above the number. -/
theorem log2_add_lt (h : Represents (.ofMantissaAndAccuracy M acc) w)
    (hE : E ≤ Format.binary64.targetExponent (totalExponent M E)) (hp : -1074 < p)
    (hw : w * 2 ^ E < 2 ^ p) :
  M.log2 + E < p
  := by
  rcases Nat.eq_zero_or_pos M with rfl | hpos
  · rw [targetExponent_eq, totalExponent] at hE
    simp only [Nat.log2_zero] at hE ⊢
    omega
  · have hlog : (2 : ℚ) ^ M.log2 ≤ M := by
      exact_mod_cast Nat.log2_self_le (Nat.ne_of_gt hpos)
    have hlt : (2 : ℚ) ^ ((M.log2 : Int) + E) < 2 ^ p := by
      calc (2 : ℚ) ^ ((M.log2 : Int) + E)
        _ = 2 ^ M.log2 * 2 ^ E := (two_pow_mul rfl).symm
        _ ≤ w * 2 ^ E := by
          apply mul_le_mul_of_nonneg_right
          · linarith [h.mantissa_le.1]
          · positivity
        _ < 2 ^ p := hw
    apply (zpow_lt_zpow_iff_right₀ one_lt_two).mp hlt

end Represents

/-- A number of the rounding interval of a float is rounded to the float. -/
theorem roundWithAccuracy_of_isInInterval {M : Nat} {E : Int} {acc : Accuracy} {w : ℚ}
    (hr : Represents (.ofMantissaAndAccuracy M acc) w)
    (hE : E ≤ Format.binary64.targetExponent (totalExponent M E))
    {m : Nat} {q : Int} (hc : IsAligned m q) (hv : IsInInterval m q (w * 2 ^ E)) :
  roundWithAccuracy .binary64 .positive M E acc = aligned m q
  := by
  have hscale : ∀ T : Int, w * 2 ^ E * 2 ^ (-T) = w * 2 ^ (E - T) := by
    intro T
    rw [mul_assoc, two_zpow_mul rfl, sub_eq_add_neg]
  have hq := hc.le_exponent
  have hL := hr.log2_add_lt hE (by omega) (hv.lt_zpow hc)
  by_cases h : q ≠ -1074 ∧ w * 2 ^ E < 2 ^ (q + 52)
  · -- rounding goes up to a power of two, and the exponent with it
    obtain ⟨rfl, hge, hk⟩ := hv.roundsTo_of_lt hc h.1 h.2
    have h₁ := hr.log2_add_lt hE (by omega) h.2
    have h₂ := hr.le_log2_add hge
    have hT : Format.binary64.targetExponent (totalExponent M E) = q - 1 := by
      rw [targetExponent_eq, totalExponent]
      omega
    rw [hT] at hE
    have hq' : 1 - q = -(q - 1) := by ring
    rw [hq', hscale] at hk
    apply roundWithAccuracy_eq hT hE hr hk
    apply shiftToTargetExponent_succ
    omega
  · have hT : Format.binary64.targetExponent (totalExponent M E) = q := by
      rw [targetExponent_eq, totalExponent]
      by_cases hq' : q = -1074
      · omega
      · have hge := hr.le_log2_add (p := q + 52) (by simpa [hq'] using h)
        omega
    rw [hT] at hE
    have hk := hv.roundsTo
    rw [hscale] at hk
    apply roundWithAccuracy_eq hT hE hr hk
    apply shiftToTargetExponent_eq hc

end SliderCalculator.Number
