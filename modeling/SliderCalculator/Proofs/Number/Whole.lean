import SliderCalculator.Number.Arithmetic
import SliderCalculator.Proofs.Number.Operations

/-!
# Whole numbers

A float is rounded to the nearest whole number, away from zero from halfway between two:
`rounds_roundHalfAway`. A whole number that has at most 53 bits is what some float stands for, so
sums and products are exact as long as they are such numbers: `StandsFor.add` and `StandsFor.mul`.
-/

namespace SliderCalculator.Number

open Float.Model (UnpackedFloat)
open Float.Model.UnpackedFloat (Sign)

variable {v w : ℚ} {x y : Float}

/-! ### The nearest whole number -/

/-- The whole number nearest to a rational, away from zero from halfway between two. -/
def nearestInteger (v : ℚ) : Int :=
  if 0 ≤ v then round v else -round (-v)

theorem round_le_round (h : v ≤ w) :
  round v ≤ round w
  := by
  rw [round_eq, round_eq]
  apply Int.floor_mono
  linarith

theorem round_nonneg (h : 0 ≤ v) :
  0 ≤ round v
  := by
  rw [← round_zero (α := ℚ)]
  apply round_le_round h

theorem nearestInteger_le_nearestInteger {v w : ℚ} (h : v ≤ w) :
  nearestInteger v ≤ nearestInteger w
  := by
  rw [nearestInteger, nearestInteger]
  split
  case isTrue hv =>
    rw [if_pos (hv.trans h)]
    apply round_le_round h
  case isFalse hv =>
    have hv := round_nonneg (v := -v) (by linarith)
    split
    case isTrue hw =>
      have hw := round_nonneg hw
      omega
    case isFalse =>
      have := round_le_round (neg_le_neg h)
      omega

/-- A whole number is the nearest one to itself. -/
theorem nearestInteger_intCast (n : Int) :
  nearestInteger n = n
  := by
  rw [nearestInteger]
  split
  · apply round_intCast
  · rw [← Int.cast_neg, round_intCast, neg_neg]

/-- The sign does not matter for the nearest whole number. -/
theorem nearestInteger_withSign (s : Sign) (hv : 0 ≤ v) :
  (nearestInteger (withSign s v) : ℚ) = withSign s (round v)
  := by
  cases s with
  | positive => rw [withSign, nearestInteger, if_pos hv, withSign]
  | negative =>
    rw [withSign, withSign, nearestInteger]
    split
    case isTrue h =>
      obtain rfl : v = 0 := by linarith
      rw [neg_zero, round_zero, Int.cast_zero, neg_zero]
    case isFalse => rw [neg_neg, Int.cast_neg]

/-- The nearest whole number is found by a division. -/
theorem round_div_two_pow (m k : Nat) :
  round (m / 2 ^ k : ℚ) = nearestWhole m k
  := by
  have hv : (m / 2 ^ k + 1 / 2 : ℚ)
      = ((2 * m + 2 ^ k : Nat) : Int) / ((2 ^ (k + 1) : Nat) : ℚ) := by
    push_cast
    field_simp
    ring
  rw [round_eq, hv, Rat.floor_intCast_div_natCast]
  rfl

/-- A float is rounded to the nearest whole number. -/
theorem rounds_roundHalfAway (hx : x.isFinite = true) :
  Rounds (nearestInteger (toRat x)) (roundHalfAway x)
  := by
  obtain ⟨s, hu, htx⟩ | ⟨s, m, q, hm, hu, -, htx⟩ := cases_of_isFinite hx
  · have hz : ((nearestInteger (toRat x) : Int) : ℚ) = toRat x := by
      rw [htx]
      exact congrArg _ (nearestInteger_intCast 0)
    rw [hz, roundHalfAway, hu]
    apply rounds_self hx
  · rw [roundHalfAway, hu]
    dsimp only
    split
    case isTrue hq =>
      -- the number is whole
      have hn : toRat x = (s.apply (m * 2 ^ q.toNat : Nat) : Int) := by
        rw [htx, cast_apply]
        push_cast
        rw [← zpow_natCast, Int.toNat_of_nonneg hq]
      have hz : ((nearestInteger (toRat x) : Int) : ℚ) = toRat x := by
        rw [hn, nearestInteger_intCast]
      rw [hz]
      apply rounds_self hx
    case isFalse hq =>
      have hk : (m * 2 ^ q : ℚ) = m / 2 ^ (-q).toNat := by
        rw [div_eq_mul_inv, ← zpow_natCast, ← zpow_neg]
        congr 2
        omega
      rw [htx, nearestInteger_withSign s (by positivity), hk, round_div_two_pow]
      rcases Nat.eq_zero_or_pos (nearestWhole m (-q).toNat) with h0 | hpos
      · have hz : withSign s 0 = 0 := by
          cases s
          · exact neg_zero
          · rfl
        rw [h0, Nat.cast_zero, Int.cast_zero, hz]
        cases s <;> apply rounds_zero
      · have h := rounds_round s hpos 0
        rw [zpow_zero, mul_one] at h
        apply h

theorem approximates_roundHalfAway :
  Approximates roundHalfAway fun v => nearestInteger v
  := by
  constructor
  · apply rounds_roundHalfAway
  · intro x s hs
    rw [roundHalfAway, hs]

/-! ### Exact results -/

/-- Whether a float is finite and stands for a number. -/
structure StandsFor (x : Float) (v : ℚ) : Prop where
  isFinite : x.isFinite = true
  toRat_eq : toRat x = v

instance (x : Float) (v : ℚ) : Decidable (StandsFor x v) :=
  decidable_of_iff (x.isFinite = true ∧ toRat x = v) ⟨fun h => ⟨h.1, h.2⟩, fun h => ⟨h.1, h.2⟩⟩

/-- A whole number that has at most 53 bits is what some float stands for. -/
theorem exists_standsFor {n : Nat} (hn : n < 2 ^ 53) :
  ∃ x, StandsFor x n
  := by
  rcases Nat.eq_zero_or_pos n with rfl | hpos
  · exact ⟨0, isFinite_zero, toRat_zero⟩
  · have hlog : n.log2 < 53 := (Nat.log2_lt hpos.ne').mpr hn
    have hm : (n * 2 ^ (52 - n.log2)).log2 = 52 := by
      rw [log2_mul_two_pow hpos]
      omega
    rw [Nat.log2_eq_iff (by positivity)] at hm
    have hc : IsAligned (n * 2 ^ (52 - n.log2)) (n.log2 - 52) := ⟨hm.2, by omega, .inr hm.1⟩
    obtain ⟨hx, htx⟩ := isFinite_and_toRat_eq (unpack_pack_aligned hc (by omega))
    refine ⟨_, hx, htx.trans ?_⟩
    push_cast
    rw [mul_assoc, two_pow_mul (c := 0) (by omega), zpow_zero, mul_one]

variable {m n : Nat}

/-- A whole number that has at most 53 bits is rounded to a float that stands for it. -/
theorem Rounds.standsFor (h : Rounds n x) (hn : n < 2 ^ 53) :
  StandsFor x n
  := by
  obtain ⟨y, hy, hty⟩ := exists_standsFor hn
  obtain ⟨hx, htx⟩ := h.toRat_eq hy hty
  exact ⟨hx, htx⟩

/-- A number between zero and a whole number is rounded to a float between them. -/
theorem Rounds.le_natCast (h : Rounds v x) (h0 : 0 ≤ v) (hv : v ≤ n) (hn : n < 2 ^ 53) :
  x.isFinite = true ∧ 0 ≤ toRat x ∧ toRat x ≤ n
  := by
  obtain ⟨y, hy, hty⟩ := exists_standsFor hn
  have hxy : x ≤ y := by
    apply h.le (rounds_self hy)
    rw [hty]
    apply hv
  have hx := isFinite_of_le_of_le isFinite_zero hy (h.zero_le h0) hxy
  refine ⟨hx, h.isNearest.toRat_nonneg hx h0, ?_⟩
  rw [← hty]
  apply (le_iff_toRat_le hx hy).mp hxy

/-- What is at most a whole number is rounded to one that is at most this. -/
theorem exists_roundHalfAway (hx : x.isFinite = true) (h0 : 0 ≤ toRat x) (hle : toRat x ≤ n)
    (hn : n < 2 ^ 53) :
  ∃ k ≤ n, StandsFor (roundHalfAway x) k
  := by
  have hl := nearestInteger_le_nearestInteger h0
  have hu := nearestInteger_le_nearestInteger hle
  have hz := nearestInteger_intCast 0
  have hn' := nearestInteger_intCast n
  rw [Int.cast_zero] at hz
  rw [Int.cast_natCast] at hn'
  have hr := rounds_roundHalfAway hx
  obtain ⟨k, hk⟩ := Int.eq_ofNat_of_zero_le (hz ▸ hl)
  rw [hk, Int.cast_natCast] at hr
  have hkn : k ≤ n := by omega
  exact ⟨k, hkn, hr.standsFor (by omega)⟩

namespace StandsFor

/-- A sum of whole numbers is exact. -/
theorem add (hx : StandsFor x m) (hy : StandsFor y n) (h : m + n < 2 ^ 53) :
  StandsFor (x + y) (m + n : Nat)
  := by
  have hr := rounds_add hx.isFinite hy.isFinite
  rw [hx.toRat_eq, hy.toRat_eq, ← Nat.cast_add] at hr
  apply hr.standsFor h

/-- A difference of whole numbers is exact. -/
theorem sub (hx : StandsFor x (m + n : Nat)) (hy : StandsFor y m) (h : n < 2 ^ 53) :
  StandsFor (x - y) n
  := by
  have hr := rounds_sub hx.isFinite hy.isFinite
  rw [hx.toRat_eq, hy.toRat_eq, Nat.cast_add, add_sub_cancel_left] at hr
  apply hr.standsFor h

/-- A product of whole numbers is exact. -/
theorem mul (hx : StandsFor x m) (hy : StandsFor y n) (h : m * n < 2 ^ 53) :
  StandsFor (x * y) (m * n : Nat)
  := by
  have hr := rounds_mul hx.isFinite hy.isFinite
  rw [hx.toRat_eq, hy.toRat_eq, ← Nat.cast_mul] at hr
  apply hr.standsFor h

/-- A quotient of whole numbers is exact if it is whole. -/
theorem div (hx : StandsFor x (m * n : Nat)) (hy : StandsFor y n) (hn : 0 < n) (h : m < 2 ^ 53) :
  StandsFor (x / y) m
  := by
  have hn' : (n : ℚ) ≠ 0 := Nat.cast_ne_zero.mpr hn.ne'
  have hr := rounds_div hx.isFinite hy.isFinite (hy.toRat_eq ▸ hn')
  rw [hx.toRat_eq, hy.toRat_eq, Nat.cast_mul, mul_div_cancel_right₀ _ hn'] at hr
  apply hr.standsFor h

/-- Whole numbers are kept when they are rounded to a whole number. -/
theorem roundHalfAway (hx : StandsFor x m) (h : m < 2 ^ 53) :
  StandsFor (roundHalfAway x) m
  := by
  have hr := rounds_roundHalfAway hx.isFinite
  have hm := nearestInteger_intCast m
  rw [Int.cast_natCast] at hm
  rw [hx.toRat_eq, hm, Int.cast_natCast] at hr
  apply hr.standsFor h

end StandsFor

end SliderCalculator.Number
