import SliderCalculator.Proofs.Number.Grid
import SliderCalculator.Proofs.Number.Numeral
import SliderCalculator.Proofs.Number.Reading

/-!
# Shortest decimals are short

No grid that is coarser than the one of the shortest decimal of a float has a point in the rounding
interval: `le_exponent_shortest`. So no numeral that is rounded to the float has fewer digits than
the text of the float, and none with as many is nearer to the float: `exists_isShortest`.
-/

namespace SliderCalculator

open Number

variable {m : Nat} {q : Int}

/-! ### Tiny numbers -/

/-- The least power of ten above twice the least float, in quarters of the least float. -/
theorem ten_zpow_bounds :
  8 * 2 ^ (-1076 : Int) < (10 ^ (-323 : Int) : ℚ)
    ∧ 5 * 10 ^ (-323 : Int) < (42 * 2 ^ (-1076 : Int) : ℚ)
  := by
  have hlt : (8 * 10 ^ 323 : ℚ) < 2 ^ 1076 := by
    exact_mod_cast (by decide +kernel : 8 * 10 ^ 323 < 2 ^ 1076)
  have hle : (5 * 2 ^ 1076 : ℚ) < 42 * 10 ^ 323 := by
    exact_mod_cast (by decide +kernel : 5 * 2 ^ 1076 < 42 * 10 ^ 323)
  rw [zpow_neg (2 : ℚ), zpow_neg (10 : ℚ), ← div_eq_mul_inv, ← div_eq_mul_inv, ← div_eq_mul_inv]
  constructor
  · rw [div_lt_iff₀ (by positivity), inv_mul_eq_div, lt_div_iff₀ (by positivity)]
    exact_mod_cast hlt
  · rw [div_lt_div_iff₀ (by positivity) (by positivity)]
    exact_mod_cast hle

theorem ten_zpow_mul_le {a b : Int} (h : a < b) :
  (10 ^ a * 10 : ℚ) ≤ 10 ^ b
  := by
  rw [← zpow_add_one₀ (by norm_num)]
  exact zpow_le_zpow_right₀ (by norm_num) h

/-- Only one power of ten lies between the least float and nine and a half times the least float. -/
theorem eq_of_ten_zpow_lt {k : Int} (hlt : (4 * 2 ^ (-1076 : Int) : ℚ) < 10 ^ k)
    (hle : (10 ^ k : ℚ) ≤ 38 * 2 ^ (-1076 : Int)) :
  k = -323
  := by
  obtain ⟨hl, hu⟩ := ten_zpow_bounds
  have hp : (0 : ℚ) < 2 ^ (-1076 : Int) := by positivity
  obtain h | h | h := lt_trichotomy k (-323)
  · linarith [ten_zpow_mul_le h]
  · exact h
  · linarith [ten_zpow_mul_le h]

/-- Only tiny floats have numbers in their interval of which one is less than another by a tenth of
it. -/
theorem lt_of_isInInterval (hm : 0 < m) {u w : ℚ} (hw : IsInInterval m q w)
    (hu : IsInInterval m q u) (hle : 10 * w ≤ 9 * u) :
  m < 10
  := by
  have hp : (0 : ℚ) < 2 ^ (q - 2) := by positivity
  have hlower : (4 * m - 2 : ℚ) ≤ (RoundingInterval.of m q).lower := by
    obtain ⟨-, -, hl⟩ | ⟨-, hl⟩ := lower_roundingInterval (q := q) hm <;> linarith
  have hlower := mul_le_mul_of_nonneg_right hlower hp.le
  have hupper := hu.ge
  rw [upper_roundingInterval] at hupper
  push_cast at hupper
  have h : (10 * (4 * m - 2) : ℚ) * 2 ^ (q - 2) ≤ (9 * (4 * m + 2)) * 2 ^ (q - 2) := by
    linarith [hw.le]
  have h := le_of_mul_le_mul_right h hp
  have h : (m : ℚ) < 10 := by linarith
  exact_mod_cast h

/-- The middle between a power of ten and a number that is less by a tenth or more is not above a
float in whose interval both lie. -/
theorem add_ten_zpow_le (hm : 0 < m) (hc : IsAligned m q) {k : Int} {w : ℚ}
    (hw : IsInInterval m q w) (hk : IsInInterval m q (10 ^ k)) (hle : 10 * w ≤ 9 * 10 ^ k) :
  10 ^ k + w ≤ (2 * (m * 2 ^ q) : ℚ)
  := by
  have hten : (0 : ℚ) < 10 ^ k := by positivity
  rcases le_or_gt (10 ^ k : ℚ) (m * 2 ^ q) with hv | hv
  · linarith
  · have hlt := lt_of_isInInterval hm hw hk hle
    obtain rfl : q = -1074 := hc.eq_or_le.resolve_right (by omega)
    have hupper := hk.ge
    have hq : (-1074 : Int) - 2 = -1076 := rfl
    rw [upper_roundingInterval, hq] at hupper
    rw [two_zpow_quarters, hq] at hv ⊢
    obtain ⟨hl, hu⟩ := ten_zpow_bounds
    have hp : (0 : ℚ) < 2 ^ (-1076 : Int) := by positivity
    obtain rfl : k = -323 := by
      apply eq_of_ten_zpow_lt
      · apply lt_of_le_of_lt _ hv
        rw [← mul_assoc]
        apply mul_le_mul_of_nonneg_right _ hp.le
        have hm : (1 : ℚ) ≤ m := by exact_mod_cast hm
        linarith
      · apply hupper.trans
        apply mul_le_mul_of_nonneg_right _ hp.le
        exact_mod_cast (by omega : 4 * m + 2 ≤ 38)
    have hm : 8 < 4 * m + 2 := by
      have hm := lt_of_mul_lt_mul_right (hl.trans_le hupper) hp.le
      exact_mod_cast hm
    have hm : (2 : ℚ) ≤ m := by exact_mod_cast (by omega : 2 ≤ m)
    have hm := mul_le_mul_of_nonneg_right hm hp.le
    linarith

/-- A power of ten in the interval of a float is not farther from the float than a number with one
digit below the power. -/
theorem abs_sub_ten_zpow_le (hm : 0 < m) (hc : IsAligned m q) {c : Nat} {e k : Int}
    (h : IsInInterval m q (c * 10 ^ e)) (hk : IsInInterval m q (10 ^ k)) (hlt : c < 10)
    (he : e < k) :
  |(m * 2 ^ q - 10 ^ k : ℚ)| ≤ |(m * 2 ^ q - c * 10 ^ e : ℚ)|
  := by
  have hle : 10 * (c * 10 ^ e) ≤ (9 * 10 ^ k : ℚ) := by
    have hc9 : (c : ℚ) ≤ 9 := by exact_mod_cast Nat.lt_succ_iff.mp hlt
    calc 10 * (c * 10 ^ e : ℚ)
      _ = c * (10 ^ e * 10) := by ring
      _ ≤ 9 * 10 ^ k := mul_le_mul hc9 (ten_zpow_mul_le he) (by positivity) (by norm_num)
  have hpos : (0 : ℚ) < 10 ^ k := by positivity
  rw [abs_sub_le_iff_of_lt (by linarith)]
  apply add_ten_zpow_le hm hc h hk hle

/-! ### Shortest decimals -/

namespace Decimal

variable {c s : Nat} {e : Int}

/-- No grid with a point in the interval is coarser than that of the shortest decimal. -/
theorem le_exponent_shortest (hm : 0 < m) (hc : IsAligned m q) (hq : q ≤ 971)
    (h : IsInInterval m q (c * 10 ^ e)) :
  e ≤ (shortest m q).exponent
  := by
  by_contra hlt
  rw [shortest] at hlt
  by_cases he : (RoundingInterval.of m q).coarsest < e
  · apply RoundingInterval.not_isInInterval_of_coarsest_lt hm hc hq he c h
  · apply RoundingInterval.not_isInInterval_of_nearest? hm _ c h
    apply RoundingInterval.nearest?_of_search _ _ _ (lt_of_not_ge hlt)
    omega

/-- A power of ten between a decimal in the interval and the shortest one has the exponent of the
shortest one. -/
theorem isInInterval_ten_zpow (hm : 0 < m) (hc : IsAligned m q) (hq : q ≤ 971)
    (h : IsInInterval m q (c * 10 ^ e))
    (hle : (c * 10 ^ e : ℚ) ≤ 10 ^ s * 10 ^ (shortest m q).exponent)
    (hs : 10 ^ s ≤ (shortest m q).coefficient) :
  s = 0 ∧ IsInInterval m q (10 ^ (shortest m q).exponent)
  := by
  have hi := isInInterval_shortest hm q
  have hpow : (10 ^ s * 10 ^ (shortest m q).exponent : ℚ)
      = (1 : Nat) * 10 ^ (s + (shortest m q).exponent) := by
    rw [Nat.cast_one, one_mul, zpow_add₀ (by norm_num), zpow_natCast]
  have hten : IsInInterval m q (10 ^ s * 10 ^ (shortest m q).exponent) := by
    apply h.of_le_of_le hi hle
    exact_mod_cast RoundingInterval.mul_ten_zpow_le_mul hs _
  -- it is a point of its own grid
  have hle := le_exponent_shortest hm hc hq (hpow ▸ hten)
  obtain rfl : s = 0 := by omega
  rw [pow_zero, one_mul] at hten
  exact ⟨rfl, hten⟩

/-- The shortest decimal has no more digits than another one in the interval. -/
theorem coefficient_shortest_lt (hm : 0 < m) (hc : IsAligned m q) (hq : q ≤ 971)
    (h : IsInInterval m q (c * 10 ^ e)) (hs : c < 10 ^ s) :
  (shortest m q).coefficient < 10 ^ s
  := by
  by_contra hd
  have he := le_exponent_shortest hm hc hq h
  have hle : (c * 10 ^ e : ℚ) ≤ 10 ^ s * 10 ^ (shortest m q).exponent := by
    apply mul_le_mul _ (zpow_le_zpow_right₀ (by norm_num) he) (by positivity) (by positivity)
    exact_mod_cast hs.le
  obtain ⟨rfl, -⟩ := isInInterval_ten_zpow hm hc hq h hle (not_lt.mp hd)
  have hpos := h.coefficient_pos hc hm
  rw [pow_zero] at hs
  omega

/-- The shortest decimal is not farther from the float than another one in the interval that has no
more digits. -/
theorem abs_sub_shortest_le (hm : 0 < m) (hc : IsAligned m q) (hq : q ≤ 971)
    (h : IsInInterval m q (c * 10 ^ e)) (hs : 10 ^ s ≤ (shortest m q).coefficient)
    (hlt : c < 10 ^ (s + 1)) :
  |(m * 2 ^ q - (shortest m q).coefficient * 10 ^ (shortest m q).exponent : ℚ)|
    ≤ |(m * 2 ^ q - c * 10 ^ e : ℚ)|
  := by
  have hn := nearest?_shortest hm q
  obtain he | he := eq_or_lt_of_le (le_exponent_shortest hm hc hq h)
  · rw [he] at h ⊢
    apply RoundingInterval.abs_sub_nearest?_le hm hn h
  · have hle : (c * 10 ^ e : ℚ) ≤ 10 ^ s * 10 ^ (shortest m q).exponent := by
      calc (c * 10 ^ e : ℚ)
        _ ≤ 10 ^ (s + 1) * 10 ^ e := by exact_mod_cast RoundingInterval.mul_ten_zpow_le_mul hlt.le e
        _ = 10 ^ s * 10 ^ (e + 1) := by
          rw [zpow_add_one₀ (by norm_num)]
          ring
        _ ≤ 10 ^ s * 10 ^ (shortest m q).exponent :=
          mul_le_mul_of_nonneg_left (zpow_le_zpow_right₀ (by norm_num) he) (by positivity)
    -- so both have one digit, and the power of ten, a point of the grid, is between them
    obtain ⟨rfl, hk⟩ := isInInterval_ten_zpow hm hc hq h hle hs
    have hone : ((1 : Nat) * 10 ^ (shortest m q).exponent : ℚ) = 10 ^ (shortest m q).exponent := by
      rw [Nat.cast_one, one_mul]
    have hgrid := RoundingInterval.abs_sub_nearest?_le (n := 1) hm hn
    rw [hone] at hgrid
    exact (hgrid hk).trans (abs_sub_ten_zpow_le hm hc h hk hlt he)

end Decimal

/-! ### Numerals -/

/-- Whether the value of a numeral can be written with so many digits, not counting zeros before and
behind them. -/
def Numeral.HasDigits (n : Numeral) (s : Nat) : Prop :=
  ∃ (c : Nat) (e : Int), c < 10 ^ s ∧ n.value = c * 10 ^ e

variable {x : Float}

namespace Numeral

/-- Whether a numeral is the shortest one that is rounded to a float: no other one has fewer digits,
and none with as many is nearer to the float. -/
structure IsShortest (n : Numeral) (x : Float) : Prop where
  roundsTo : n.RoundsTo x
  hasDigits : ∀ other : Numeral, other.RoundsTo x → ∀ s, other.HasDigits s → n.HasDigits s
  abs_sub_le : ∀ other : Numeral, other.RoundsTo x → (∀ s, n.HasDigits s → other.HasDigits s) →
    |toRat x - n.signedValue| ≤ |toRat x - other.signedValue|

variable {n : Numeral} {hm : 0 < m}

/-- A numeral that is rounded to a float without a sign has none, too. -/
theorem RoundsTo.signedValue_eq (h : n.RoundsTo x) (hx : sign? x.toModel.unpack = some .positive) :
  n.signedValue = n.value
  := by
  have hs := h.sign_eq
  rw [hx, sign] at hs
  rw [signedValue]
  cases hn : n.negative with
  | true =>
    rw [hn] at hs
    cases hs
  | false => rfl

/-- The value of a numeral lies in the interval of the float that it is rounded to. -/
theorem RoundsTo.isInInterval (h : n.RoundsTo x)
    (hx : x.toModel.unpack = .finite .positive m q hm) :
  IsInInterval m q n.value
  := by
  obtain ⟨-, hc⟩ := isCanonical_of_unpack_eq_finite _ hx
  apply (isNearest_iff _ hc.isAligned hc.exponent_le _).mp
  · rw [← h.signedValue_eq (by rw [hx]; rfl)]
    apply h.isNearest
  · rw [hx, aligned_of_pos hm]
  · rw [value]
    positivity

/-- The digit zero is the shortest numeral that is zero. -/
theorem isShortest_zero (hx : x.toModel.unpack = .zero .positive)
    (h : (plain ['0'] []).RoundsTo x) :
  (plain ['0'] []).IsShortest x
  := by
  have hv : (plain ['0'] []).value = 0 := by
    rw [value_plain]
    simp [ofDigits]
  have hx₀ : toRat x = 0 := by
    rw [toRat, hx]
    rfl
  refine ⟨h, fun _ _ s _ => ?_, fun _ _ _ => ?_⟩
  · refine ⟨0, 0, by positivity, ?_⟩
    rw [hv, Nat.cast_zero, zero_mul]
  · rw [h.signedValue_eq (by rw [hx]; rfl), hv, hx₀, sub_zero, abs_zero]
    apply abs_nonneg

/-- A numeral that has the value of the shortest decimal of a float is shortest. -/
theorem isShortest_of_value_eq (hx : x.toModel.unpack = .finite .positive m q hm) (h : n.RoundsTo x)
    (hv : n.value = (Decimal.shortest m q).coefficient * 10 ^ (Decimal.shortest m q).exponent) :
  n.IsShortest x
  := by
  obtain ⟨-, hc⟩ := isCanonical_of_unpack_eq_finite _ hx
  have hs : sign? x.toModel.unpack = some .positive := by
    rw [hx]
    rfl
  refine ⟨h, ?_, ?_⟩
  · rintro other ho s ⟨c, e, hlt, hvo⟩
    have hi := ho.isInInterval hx
    rw [hvo] at hi
    exact ⟨_, _, Decimal.coefficient_shortest_lt hm hc.isAligned hc.exponent_le hi hlt, hv⟩
  · intro other ho hd
    have hpos := (Decimal.isInInterval_shortest hm q).coefficient_pos hc.isAligned hm
    have hl := Nat.pow_log_le_self 10 hpos.ne'
    have hu := Nat.lt_pow_succ_log_self (by decide : 1 < 10) (Decimal.shortest m q).coefficient
    obtain ⟨c, e, hlt, hvo⟩ := hd _ ⟨_, _, hu, hv⟩
    have hi := ho.isInInterval hx
    rw [hvo] at hi
    rw [h.signedValue_eq hs, ho.signedValue_eq hs, hv, hvo, toRat, hx]
    apply Decimal.abs_sub_shortest_le hm hc.isAligned hc.exponent_le hi hl hlt

end Numeral

/-- The text of a number without a sign is the shortest numeral that is rounded to the number. -/
theorem Number.IsUnsigned.exists_isShortest (h : IsUnsigned x) :
  ∃ n : Numeral, n.IsWrittenAs (text x) ∧ n.IsShortest x
  := by
  obtain ⟨n, hn, hr⟩ := (read?_eq_some_iff_of_isFinite h.isFinite).mp h.read?_text
  have hr := Numeral.toFloat_eq_iff.mp hr
  have hread := Numeral.read?_eq_some_iff.mpr hn
  refine ⟨n, hn, ?_⟩
  obtain hu | ⟨m, q, hm, hu, -⟩ := h.unpack_eq
  · rw [h.text_eq, hu] at hread
    obtain rfl : Numeral.plain ['0'] [] = n := Option.some.inj hread
    apply Numeral.isShortest_zero hu hr
  · obtain ⟨whole, fraction, hplain, hv⟩ := h.read?_text_of_finite hu
    rw [hread] at hplain
    obtain rfl := Option.some.inj hplain
    apply Numeral.isShortest_of_value_eq hu hr hv

end SliderCalculator
