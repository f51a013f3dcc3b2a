import SliderCalculator.Proofs.Number.Nearest

/-!
# Numerals are rounded to the nearest float

What a numeral denotes is the float that its value is rounded to, and has the sign of the numeral:
`toFloat_eq_iff`. This holds for digits of any number and for any exponent, those included whose
power of ten is not calculated.
-/

namespace SliderCalculator

namespace Number

open Float.Model (UnpackedFloat)
open Float.Model.UnpackedFloat (Sign)

variable {x y : Float} {v : ℚ}

theorem eq_of_unpack_eq (h : x.toModel.unpack = y.toModel.unpack) :
  x = y
  := by
  rw [← ofModel_pack_unpack x, h, ofModel_pack_unpack]

/-! ### Floats with the other sign -/

/-- The other sign is packed and unpacked like the one. -/
theorem unpack_neg (x : Float) :
  (-x).toModel.unpack = x.toModel.unpack.neg
  := by
  have hx : -x = Float.ofModel (.pack x.toModel.unpack.neg) := rfl
  rw [hx]
  cases hu : x.toModel.unpack with
  | notANumber => exact isNaN_iff.mp isNaN_nan
  | infinity s | zero s => cases s <;> rfl
  | finite s m q hm => exact unpack_pack_finite hm (isCanonical_of_unpack_eq_finite _ hu).2

theorem double_neg (x : Float) :
  - -x = x
  := by
  apply eq_of_unpack_eq
  rw [unpack_neg, unpack_neg]
  cases x.toModel.unpack with
  | notANumber => rfl
  | infinity s | zero s | finite s => cases s <;> rfl

theorem sign?_neg (x : Float) :
  sign? (-x).toModel.unpack = (sign? x.toModel.unpack).map (- ·)
  := by
  rw [unpack_neg]
  cases x.toModel.unpack <;> rfl

theorem isFinite_neg (x : Float) :
  (-x).isFinite = x.isFinite
  := by
  change (-x).toModel.unpack.isFinite = x.toModel.unpack.isFinite
  rw [unpack_neg]
  cases x.toModel.unpack <;> rfl

theorem toRat_neg (x : Float) :
  toRat (-x) = -toRat x
  := by
  rw [toRat, toRat, unpack_neg]
  cases x.toModel.unpack with
  | notANumber => exact neg_zero.symm
  | infinity s | zero s => cases s <;> exact neg_zero.symm
  | finite s m q hm =>
    cases s with
    | positive => rfl
    | negative => exact (neg_neg _).symm

theorem IsEven.neg (h : IsEven x) :
  IsEven (-x)
  := by
  intro s m q hm hu
  apply h (-s) m q hm
  rw [← double_neg x, unpack_neg, hu]
  rfl

/-- A number is rounded to a float exactly when the one with the other sign is. -/
theorem IsNearest.neg (h : IsNearest v x) :
  IsNearest (-v) (-x)
  := by
  have hd (y : Float) : |-v - toRat y| = |v - toRat (-y)| := by
    rw [toRat_neg, ← abs_neg]
    congr 1
    ring
  constructor
  · rw [isFinite_neg, abs_neg]
    apply h.isFinite_iff
  · intro hx y hy
    rw [isFinite_neg] at hx
    rw [hd, hd, double_neg]
    apply h.le hx
    rw [isFinite_neg]
    apply hy
  · intro hx y hy hne heq
    rw [isFinite_neg] at hx
    rw [hd, hd, double_neg] at heq
    apply IsEven.neg
    apply h.isEven hx (-y) _ _ heq
    · rw [isFinite_neg]
      apply hy
    · intro h'
      apply hne
      rw [toRat_neg, ← h', toRat_neg, neg_neg]

/-! ### Decimals -/

variable {m C : Nat} {q S : Int}

/-- What has too large an exponent is packed as infinity. -/
theorem pack_of_lt {s : Sign} (hm : 0 < m) (hq : 971 < q) :
  Float.Model.pack (.finite s m q hm) = .pack (.infinity s)
  := by
  have hp : UnpackedFloat.pack .binary64 (.finite s m q hm)
      = UnpackedFloat.packedInfinity .binary64 s := by
    unfold UnpackedFloat.pack
    apply if_pos
    change 2 ^ 11 ≤ (q + 1023 + (52 : Nat)).toNat + 1
    omega
  rw [Float.Model.pack, Float.Model.pack, Float.Model.mk.injEq, hp]
  rfl

/-- What has too large an exponent has a mantissa with all bits. -/
theorem IsAligned.pos_of_lt (hc : IsAligned m q) (hq : 971 < q) :
  0 < m
  := by
  have := hc.eq_or_le
  omega

/-- What is packed is unpacked again, or is infinite if its exponent is larger than those of
floats. -/
theorem unpack_pack (hc : IsAligned m q) :
  (Float.ofModel (.pack (aligned m q))).toModel.unpack
    = if q ≤ 971 then aligned m q else .infinity .positive
  := by
  split
  case isTrue hq => apply unpack_pack_aligned hc hq
  case isFalse hq =>
    have hm := hc.pos_of_lt (lt_of_not_ge hq)
    rw [aligned_of_pos hm, pack_of_lt hm (lt_of_not_ge hq)]
    rfl

/-- A decimal in a rounding interval is read as the float, or as infinity if the exponent is larger
than those of floats. -/
theorem unpack_ofScientific (hc : IsAligned m q) (hv : IsInInterval m q (C * 10 ^ S)) :
  (Float.ofModel (.ofScientific C S)).toModel.unpack
    = if q ≤ 971 then aligned m q else .infinity .positive
  := by
  have hx : Float.Model.ofScientific C S
      = .pack (UnpackedFloat.ofScientific .binary64 C S) := rfl
  rw [hx]
  by_cases hS : S ≤ 2 ^ 11
  · rw [ofScientific_of_isInInterval hS hc hv]
    apply unpack_pack hc
  · rw [UnpackedFloat.ofScientific]
    by_cases hC : C = 0
    · have hm : m = 0 := Nat.eq_zero_of_not_pos fun hm => (hv.coefficient_pos hc hm).ne' hC
      have hq := hc.eq_or_le
      rw [dif_pos hC, if_pos (by omega), hm, aligned_zero]
      rfl
    · have hinfinity : (Float.ofModel (.pack (.infinity .positive))).toModel.unpack
          = .infinity .positive := rfl
      rw [dif_neg hC, if_pos (by exact lt_of_not_ge hS), hinfinity, if_neg]
      intro hq
      apply hS
      exact le_of_mul_zpow_lt (Nat.pos_of_ne_zero hC) (hv.lt_of_le hc hq)

/-- A float whose sign is positive is finite with a mantissa and an exponent, or infinite. -/
theorem unpack_eq_of_sign? (h : sign? x.toModel.unpack = some .positive) :
  (∃ m q, x.toModel.unpack = aligned m q ∧ IsAligned m q ∧ q ≤ 971)
    ∨ x.toModel.unpack = .infinity .positive
  := by
  cases hu : x.toModel.unpack with
  | notANumber =>
    rw [hu] at h
    contradiction
  | infinity s =>
    rw [hu] at h
    cases h
    exact .inr rfl
  | zero s =>
    rw [hu] at h
    cases h
    exact .inl ⟨0, -1074, (aligned_zero _).symm, isAligned_zero, by decide⟩
  | finite s m q hm =>
    rw [hu] at h
    cases h
    obtain ⟨-, hc⟩ := isCanonical_of_unpack_eq_finite _ hu
    exact .inl ⟨m, q, (aligned_of_pos hm).symm, hc.isAligned, hc.exponent_le⟩

/-- What is infinite is what too large a number is rounded to. -/
theorem isNearest_of_infinity {s : Sign} (hx : x.toModel.unpack = .infinity s) :
  IsNearest v x ↔ overflow ≤ |v|
  := by
  have hf : x.isFinite = false := by
    change x.toModel.unpack.isFinite = false
    rw [hx]
    rfl
  constructor
  · intro h
    rw [← not_lt, ← h.isFinite_iff, hf]
    exact Bool.false_ne_true
  · intro h
    constructor
    · rw [hf, ← not_le]
      simp [h]
    · intro hx
      rw [hf] at hx
      contradiction
    · intro hx
      rw [hf] at hx
      contradiction

/-- A decimal is read as the float without a sign that it is rounded to. -/
theorem ofScientific_eq_iff :
  Float.ofModel (.ofScientific C S) = x
    ↔ sign? x.toModel.unpack = some .positive ∧ IsNearest (C * 10 ^ S) x
  := by
  have hv : (0 : ℚ) ≤ C * 10 ^ S := by positivity
  obtain ⟨m, q, hc, hi⟩ := exists_isInInterval hv
  have hu := unpack_ofScientific hc hi
  have hlt := hi.lt_overflow_iff hc
  constructor
  · rintro rfl
    by_cases hq : q ≤ 971
    · rw [if_pos hq] at hu
      rw [isNearest_iff hu hc hq hv, hu]
      refine ⟨?_, hi⟩
      rcases Nat.eq_zero_or_pos m with rfl | hm
      · rw [aligned_zero]
        rfl
      · rw [aligned_of_pos hm]
        rfl
    · rw [if_neg hq] at hu
      rw [isNearest_of_infinity hu, hu, abs_of_nonneg hv, ← not_lt, hlt]
      exact ⟨rfl, hq⟩
  · rintro ⟨hs, h⟩
    apply eq_of_unpack_eq
    obtain ⟨m', q', hx, hc', hq'⟩ | hx := unpack_eq_of_sign? hs
    · rw [isNearest_iff hx hc' hq' hv] at h
      rw [unpack_ofScientific hc' h, if_pos hq', hx]
    · rw [isNearest_of_infinity hx, abs_of_nonneg hv, ← not_lt, hlt] at h
      rw [hu, if_neg h, hx]

end Number

namespace Numeral

open Float.Model.UnpackedFloat (Sign)
open Number

/-- The sign of what a numeral denotes. -/
def sign (n : Numeral) : Sign :=
  if n.negative then .negative else .positive

/-- The value of a numeral with its sign. -/
def signedValue (n : Numeral) : ℚ :=
  if n.negative then -n.value else n.value

/-- Whether a float is the one that a numeral is rounded to. Zeros and infinities have the sign of
the numeral too. -/
structure RoundsTo (n : Numeral) (x : Float) : Prop where
  sign_eq : sign? x.toModel.unpack = some n.sign
  isNearest : IsNearest n.signedValue x

/-- A numeral denotes the float that it is rounded to. -/
theorem toFloat_eq_iff {n : Numeral} {x : Float} :
  n.toFloat = x ↔ n.RoundsTo x
  := by
  have hmk : n.RoundsTo x ↔ sign? x.toModel.unpack = some n.sign ∧ IsNearest n.signedValue x :=
    ⟨fun h => ⟨h.sign_eq, h.isNearest⟩, fun h => ⟨h.1, h.2⟩⟩
  rw [hmk, sign, signedValue, toFloat, value]
  cases n.negative with
  | false => apply ofScientific_eq_iff
  | true =>
    have hneg {y z : Float} : -y = z ↔ y = -z := by
      constructor
      · rintro rfl
        rw [double_neg]
      · rintro rfl
        rw [double_neg]
    simp only [if_true]
    rw [hneg, ofScientific_eq_iff, sign?_neg]
    constructor
    · rintro ⟨hs, h⟩
      constructor
      · cases hx : sign? x.toModel.unpack with
        | none =>
          rw [hx] at hs
          contradiction
        | some s => cases s <;> simp_all
      · rw [← double_neg x]
        apply h.neg
    · rintro ⟨hs, h⟩
      constructor
      · rw [hs]
        rfl
      · rw [← neg_neg (_ * _ : ℚ)]
        apply h.neg

end Numeral

end SliderCalculator
