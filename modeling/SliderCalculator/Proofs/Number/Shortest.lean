import SliderCalculator.Proofs.Number.Rounding

/-!
# Shortest decimals and rounding intervals

The shortest decimal of a float lies in the rounding interval of the float: each grid is
asked for a point in the interval, and the finest one has the float itself as a point.
-/

namespace SliderCalculator

open Number

namespace RoundingInterval

variable (r : RoundingInterval)

theorem unit_pos (k : Int) :
  0 < r.unit k
  := Nat.mul_pos (Nat.pow_pos Nat.two_pos) (Nat.pow_pos (by decide))

/-- A power made whole. -/
theorem zpow_mul_pow_toNat {a : ℚ} (ha : a ≠ 0) (k : Int) :
  a ^ k * a ^ (-k).toNat = a ^ k.toNat
  := by
  rw [← zpow_natCast, ← zpow_natCast, ← zpow_add₀ ha]
  congr 1
  omega

/-- The scale on which both the interval and a power of ten are whole. -/
def scale (k : Int) : ℚ :=
  10 ^ (-k).toNat * 2 ^ (-r.exponent).toNat

theorem scale_pos (k : Int) :
  0 < r.scale k
  := by
  rw [scale]
  positivity

/-- A multiple of a power of ten on the scale. -/
theorem mul_scale_point (n : Nat) (k : Int) :
  n * 10 ^ k * r.scale k = (n * r.step k : Nat)
  := by
  have hk := zpow_mul_pow_toNat (a := 10) (by norm_num) k
  rw [scale, step]
  simp only [Nat.pow_eq]
  push_cast
  rw [← hk]
  ring

/-- A multiple of the unit of the interval on the scale. -/
theorem mul_scale_end (n : Nat) (k : Int) :
  n * 2 ^ r.exponent * r.scale k = (n * r.unit k : Nat)
  := by
  have he := zpow_mul_pow_toNat (a := 2) two_ne_zero r.exponent
  rw [scale, unit]
  simp only [Nat.pow_eq]
  push_cast
  rw [← he]
  ring

/-- A multiple of a power of ten that is not below a multiple of the unit. -/
theorem le_point_iff (a n : Nat) (k : Int) :
  a * r.unit k ≤ n * r.step k ↔ (a * 2 ^ r.exponent : ℚ) ≤ n * 10 ^ k
  := by
  rw [← mul_le_mul_iff_left₀ (r.scale_pos k), mul_scale_point, mul_scale_end]
  norm_cast

/-- A multiple of a power of ten that is not above a multiple of the unit. -/
theorem point_le_iff (a n : Nat) (k : Int) :
  n * r.step k ≤ a * r.unit k ↔ (n * 10 ^ k : ℚ) ≤ a * 2 ^ r.exponent
  := by
  rw [← mul_le_mul_iff_left₀ (r.scale_pos k), mul_scale_point, mul_scale_end]
  norm_cast

/-- A grid point is contained in an interval when it lies in it. -/
theorem contains_iff {m : Nat} {q : Int} {n : Nat} {k : Int} :
  (of m q).contains n k = true ↔ IsInInterval m q (n * 10 ^ k)
  := by
  have hle := (of m q).le_point_iff (of m q).lower n k
  have hge := (of m q).point_le_iff (of m q).upper n k
  have hlt := not_congr ((of m q).point_le_iff (of m q).lower n k)
  have hgt := not_congr ((of m q).le_point_iff (of m q).upper n k)
  rw [Nat.not_le, not_le] at hlt hgt
  rw [contains]
  split
  case isTrue hm =>
    have hm : m % 2 = 0 := of_decide_eq_true hm
    rw [Bool.and_eq_true, decide_eq_true_iff, decide_eq_true_iff, hle, hge]
    constructor
    · intro h
      exact ⟨h.1, h.2, by omega⟩
    · intro h
      exact ⟨h.le, h.ge⟩
  case isFalse hm =>
    have hm : m % 2 = 1 := Nat.mod_two_ne_zero.mp fun h => hm (decide_eq_true h)
    rw [Bool.and_eq_true, decide_eq_true_iff, decide_eq_true_iff, hlt, hgt]
    constructor
    · intro h
      exact ⟨h.1.le, h.2.le, fun _ => h⟩
    · intro h
      exact h.odd hm

/-! ### The search -/

/-- What is nearest on a grid is contained in the interval. -/
theorem contains_of_nearest?_eq_some {k : Int} {n : Nat} (h : r.nearest? k = some n) :
  r.contains n k = true
  := by
  rw [nearest?] at h
  cases h₁ : r.contains (r.floor k) k <;> cases h₂ : r.contains (r.floor k + 1) k <;>
    simp only [h₁, h₂] at h
  · contradiction
  · cases h
    apply h₂
  · cases h
    apply h₁
  · split at h <;> cases h
    · apply h₂
    · apply h₁

theorem exists_nearest? {k : Int} (h : r.contains (r.floor k) k = true) :
  ∃ n, r.nearest? k = some n
  := by
  rw [nearest?, h]
  cases r.contains (r.floor k + 1) k with
  | true => exact ⟨_, rfl⟩
  | false => exact ⟨_, rfl⟩

/-- The search ends with the nearest point of a grid when the finest grid has a point in the
interval. -/
theorem nearest?_search {k : Int} (hk : r.contains (r.floor k) k = true) (n : Nat) :
  r.nearest? (r.search k n).exponent = some (r.search k n).coefficient
  := by
  induction n with
  | zero =>
    obtain ⟨c, h⟩ := r.exists_nearest? hk
    rw [search, h]
    rfl
  | succ n ih =>
    rw [search]
    split
    next c h => exact h
    · apply ih

/-- The steps of the finest grid fit into the float. -/
theorem step_dvd (m : Nat) (q : Int) :
  (of m q).step (min q 0) ∣ (of m q).centre * (of m q).unit (min q 0)
  := by
  have h0 : (min q 0).toNat = 0 := by omega
  simp only [step, unit, of, h0, Nat.pow_eq, pow_zero, one_mul]
  generalize hn : (-min q 0).toNat = n
  calc 2 ^ (-(q - 2)).toNat
    _ ∣ 2 ^ (2 + n) := by
      apply pow_dvd_pow
      omega
    _ = 4 * 2 ^ n := by rw [pow_add]; rfl
    _ ∣ 4 * 10 ^ n := by
      apply mul_dvd_mul_left
      apply pow_dvd_pow_of_dvd
      decide
    _ ∣ 4 * 10 ^ n * (m * 2 ^ (q - 2).toNat) := dvd_mul_right _ _
    _ = 4 * m * (2 ^ (q - 2).toNat * 10 ^ n) := by ring

/-- A float is a point of the finest grid, and lies in its own interval. -/
theorem contains_floor {m : Nat} (hm : 0 < m) (q : Int) :
  (of m q).contains ((of m q).floor (min q 0)) (min q 0) = true
  := by
  have hu := (of m q).unit_pos (min q 0)
  have hpoint : (of m q).floor (min q 0) * (of m q).step (min q 0)
      = (of m q).centre * (of m q).unit (min q 0) := Nat.div_mul_cancel (step_dvd m q)
  have hlower : (of m q).lower * (of m q).unit (min q 0)
      < (of m q).centre * (of m q).unit (min q 0) := by
    apply Nat.mul_lt_mul_of_pos_right _ hu
    simp only [of]
    split <;> omega
  have hupper : (of m q).centre * (of m q).unit (min q 0)
      < (of m q).upper * (of m q).unit (min q 0) := by
    apply Nat.mul_lt_mul_of_pos_right _ hu
    simp only [of]
    omega
  rw [contains, hpoint]
  split
  · rw [decide_eq_true hlower.le, decide_eq_true hupper.le]
    rfl
  · rw [decide_eq_true hlower, decide_eq_true hupper]
    rfl

end RoundingInterval

/-- The shortest decimal of a float is the nearest point of its grid. -/
theorem Decimal.nearest?_shortest {m : Nat} (hm : 0 < m) (q : Int) :
  (RoundingInterval.of m q).nearest? (shortest m q).exponent = some (shortest m q).coefficient
  := by
  apply RoundingInterval.nearest?_search
  apply RoundingInterval.contains_floor hm

/-- The shortest decimal of a float lies in its rounding interval. -/
theorem Decimal.isInInterval_shortest {m : Nat} (hm : 0 < m) (q : Int) :
  IsInInterval m q ((shortest m q).coefficient * 10 ^ (shortest m q).exponent)
  := by
  apply RoundingInterval.contains_iff.mp
  apply RoundingInterval.contains_of_nearest?_eq_some
  apply nearest?_shortest hm

end SliderCalculator
