import SliderCalculator.Proofs.Number.Neighbours
import SliderCalculator.Proofs.Number.Shortest

/-!
# Points of grids in rounding intervals

Among the multiples of a power of ten in the rounding interval of a float, one that is nearest to
the float is found: `abs_sub_nearest?_le`. None is found only if there is none:
`not_isInInterval_of_nearest?`. The search passes over no power: `nearest?_of_search` and
`not_isInInterval_of_coarsest_lt`.
-/

namespace SliderCalculator

open Number

variable {m : Nat} {q : Int}

/-! ### Points of an interval -/

namespace Number.IsInInterval

variable {u v w : ℚ}

/-- A number between two of an interval lies in the interval. -/
theorem of_le_of_le (hu : IsInInterval m q u) (hw : IsInInterval m q w) (huv : u ≤ v)
    (hvw : v ≤ w) :
  IsInInterval m q v
  := by
  constructor
  · apply hu.le.trans huv
  · apply hvw.trans hw.ge
  · intro hm
    exact ⟨lt_of_lt_of_le (hu.odd hm).1 huv, lt_of_le_of_lt hvw (hw.odd hm).2⟩

/-- A float lies in its interval. -/
theorem self (hm : 0 < m) (q : Int) :
  IsInInterval m q (m * 2 ^ q)
  := by
  have hp : (0 : ℚ) < 2 ^ (q - 2) := by positivity
  have hl : ((RoundingInterval.of m q).lower : ℚ) < 4 * m := by
    obtain ⟨-, -, hl⟩ | ⟨-, hl⟩ := lower_roundingInterval (q := q) hm <;> linarith
  have hl := mul_lt_mul_of_pos_right hl hp
  have hu : (4 * m : ℚ) * 2 ^ (q - 2) < (RoundingInterval.of m q).upper * 2 ^ (q - 2) := by
    apply mul_lt_mul_of_pos_right _ hp
    rw [upper_roundingInterval]
    push_cast
    linarith
  have hv : (m * 2 ^ q : ℚ) = 4 * m * 2 ^ (q - 2) := by
    rw [two_zpow_quarters q]
    ring
  rw [hv]
  exact ⟨hl.le, hu.le, fun _ => ⟨hl, hu⟩⟩

end Number.IsInInterval

namespace RoundingInterval

/-! ### Neighbours on a grid -/

theorem centre_mul (m : Nat) (q : Int) :
  ((of m q).centre * 2 ^ (of m q).exponent : ℚ) = m * 2 ^ q
  := by
  have hc : ((of m q).centre : ℚ) = 4 * m := by
    simp only [of]
    push_cast
    rfl
  have he : (of m q).exponent = q - 2 := rfl
  rw [hc, he, two_zpow_quarters q]
  ring

/-- A float lies between two neighbouring points of a grid. -/
theorem floor_le_and_le (m : Nat) (q k : Int) :
  ((of m q).floor k * 10 ^ k : ℚ) ≤ m * 2 ^ q
    ∧ (m * 2 ^ q : ℚ) ≤ ((of m q).floor k + 1 : Nat) * 10 ^ k
  := by
  rw [← centre_mul, ← point_le_iff, ← le_point_iff, floor]
  constructor
  · apply Nat.div_mul_le_self
  · have hs : 0 < (of m q).step k := Nat.mul_pos (Nat.pow_pos (by decide)) (Nat.pow_pos Nat.two_pos)
    apply ((Nat.div_lt_iff_lt_mul hs).mp (Nat.lt_succ_self _)).le

theorem mul_ten_zpow_le_mul {a b : Nat} (h : a ≤ b) (k : Int) :
  (a * 10 ^ k : ℚ) ≤ b * 10 ^ k
  := by
  apply mul_le_mul_of_nonneg_right _ (by positivity)
  exact_mod_cast h

/-- If a point of a grid lies in the interval, so does the neighbour of the float on the side of the
point. -/
theorem contains_neighbour (hm : 0 < m) {k : Int} {n : Nat} (h : IsInInterval m q (n * 10 ^ k)) :
  n ≤ (of m q).floor k ∧ (of m q).contains ((of m q).floor k) k = true
    ∨ (of m q).floor k + 1 ≤ n ∧ (of m q).contains ((of m q).floor k + 1) k = true
  := by
  have hself := IsInInterval.self hm q
  obtain ⟨hle, hge⟩ := floor_le_and_le m q k
  rcases Nat.lt_or_ge (floor (of m q) k) n with hlt | hle'
  · right
    exact ⟨hlt, contains_iff.mpr (hself.of_le_of_le h hge (mul_ten_zpow_le_mul hlt k))⟩
  · left
    exact ⟨hle', contains_iff.mpr (h.of_le_of_le hself (mul_ten_zpow_le_mul hle' k) hle)⟩

/-! ### Nearest points -/

/-- A grid with no nearest point in an interval has no point there. -/
theorem not_isInInterval_of_nearest? (hm : 0 < m) {k : Int} (h : (of m q).nearest? k = none)
    (n : Nat) :
  ¬ IsInInterval m q (n * 10 ^ k)
  := by
  intro hn
  rw [nearest?] at h
  obtain ⟨-, hc⟩ | ⟨-, hc⟩ := contains_neighbour hm hn
  · cases h' : (of m q).contains ((of m q).floor k + 1) k <;> simp [hc, h'] at h
  · cases h' : (of m q).contains ((of m q).floor k) k <;> simp [hc, h'] at h

/-- Of two neighbours of a float, the one above is taken when it is not farther. -/
theorem isNearerAbove_iff {k : Int} :
  (of m q).isNearerAbove ((of m q).floor k) k = true
    ↔ |(m * 2 ^ q - ((of m q).floor k + 1 : Nat) * 10 ^ k : ℚ)|
      ≤ |(m * 2 ^ q - (of m q).floor k * 10 ^ k : ℚ)|
  := by
  generalize (of m q).floor k = f
  have hp : (0 : ℚ) < 10 ^ k := by positivity
  have hlt : (f * 10 ^ k : ℚ) < (f + 1 : Nat) * 10 ^ k := by
    apply mul_lt_mul_of_pos_right _ hp
    exact_mod_cast Nat.lt_succ_self f
  have hle := (of m q).point_le_iff (2 * (of m q).centre) (2 * f + 1) k
  have hsum : ((2 * f + 1 : Nat) * 10 ^ k : ℚ) = (f + 1 : Nat) * 10 ^ k + f * 10 ^ k := by
    push_cast
    ring
  rw [Nat.mul_assoc, Nat.cast_mul, mul_assoc, centre_mul, hsum, Nat.cast_two] at hle
  rw [isNearerAbove, decide_eq_true_iff, hle, abs_sub_le_iff_of_lt hlt]

/-- What is nearest on a grid is not farther than the neighbours of the float in the interval. -/
theorem abs_sub_le_of_nearest? {k : Int} {c : Nat} (h : (of m q).nearest? k = some c) :
  ((of m q).contains ((of m q).floor k) k = true →
      |(m * 2 ^ q - c * 10 ^ k : ℚ)| ≤ |(m * 2 ^ q - (of m q).floor k * 10 ^ k : ℚ)|)
    ∧ ((of m q).contains ((of m q).floor k + 1) k = true →
      |(m * 2 ^ q - c * 10 ^ k : ℚ)| ≤ |(m * 2 ^ q - ((of m q).floor k + 1 : Nat) * 10 ^ k : ℚ)|)
  := by
  have hn := isNearerAbove_iff (m := m) (q := q) (k := k)
  rw [nearest?] at h
  split at h
  case h_1 =>
    split at h
    case isTrue hab =>
      cases h
      exact ⟨fun _ => hn.mp hab, fun _ => le_refl _⟩
    case isFalse hab =>
      cases h
      exact ⟨fun _ => le_refl _, fun _ => (not_le.mp (mt hn.mpr hab)).le⟩
  case h_2 h₂ =>
    cases h
    exact ⟨fun _ => le_refl _, fun h => absurd (h₂.symm.trans h) Bool.false_ne_true⟩
  case h_3 h₁ _ =>
    cases h
    exact ⟨fun h => absurd (h₁.symm.trans h) Bool.false_ne_true, fun _ => le_refl _⟩
  case h_4 => contradiction

/-- What is nearest on a grid is not farther than any point of the grid in the interval. -/
theorem abs_sub_nearest?_le (hm : 0 < m) {k : Int} {c n : Nat} (h : (of m q).nearest? k = some c)
    (hn : IsInInterval m q (n * 10 ^ k)) :
  |(m * 2 ^ q - c * 10 ^ k : ℚ)| ≤ |(m * 2 ^ q - n * 10 ^ k : ℚ)|
  := by
  obtain ⟨hle, hge⟩ := floor_le_and_le m q k
  obtain ⟨hbelow, habove⟩ := abs_sub_le_of_nearest? h
  obtain ⟨hnf, hc⟩ | ⟨hnf, hc⟩ := contains_neighbour hm hn
  · apply (hbelow hc).trans
    have hnf := mul_ten_zpow_le_mul hnf k
    rw [abs_of_nonneg (sub_nonneg.mpr hle), abs_of_nonneg (sub_nonneg.mpr (hnf.trans hle))]
    apply sub_le_sub_left hnf
  · apply (habove hc).trans
    have hnf := mul_ten_zpow_le_mul hnf k
    rw [abs_of_nonpos (sub_nonpos.mpr hge), abs_of_nonpos (sub_nonpos.mpr (hge.trans hnf))]
    apply neg_le_neg
    apply sub_le_sub_left hnf

/-! ### The search -/

/-- What the search passes over has no nearest point. -/
theorem nearest?_of_search (r : RoundingInterval) (k : Int) (n : Nat) {i : Int}
    (hi : (r.search k n).exponent < i) (hn : i ≤ k + n) :
  r.nearest? i = none
  := by
  induction n with
  | zero =>
    have he : (r.search k 0).exponent = k := rfl
    omega
  | succ n ih =>
    rw [search] at hi
    split at hi
    case h_1 =>
      dsimp only at hi
      omega
    case h_2 h =>
      by_cases he : i = k + (n + 1 : Nat)
      · rw [he]
        apply h
      · apply ih hi
        omega

/-- Powers with fractional exponents, compared by whole ones. -/
theorem two_zpow_le_of_le {a j : Int} {n p : Nat} (hn : n ≠ 0)
    (h : ((2 : ℚ) ^ n) ^ a ≤ (10 ^ p) ^ a) (hj : p * a ≤ n * j) :
  (2 : ℚ) ^ a ≤ 10 ^ j
  := by
  have hpow : ((2 : ℚ) ^ a) ^ n ≤ (10 ^ j) ^ n := by
    calc ((2 : ℚ) ^ a) ^ n
      _ = (2 ^ n) ^ a := by rw [← zpow_natCast, zpow_comm, zpow_natCast]
      _ ≤ (10 ^ p) ^ a := h
      _ = 10 ^ (p * a) := by rw [zpow_mul, zpow_natCast]
      _ ≤ 10 ^ (n * j) := zpow_le_zpow_right₀ (by norm_num) hj
      _ = (10 ^ j) ^ n := by rw [mul_comm, zpow_mul, zpow_natCast]
  exact le_of_pow_le_pow_left₀ hn (by positivity) hpow

/-- A power of two is at most one of ten whose exponent is three tenths of the other and a little
more, where the ratio is rounded up for large numbers, and down for small ones. -/
theorem two_zpow_le_ten_zpow {a j : Int} (hu : 28 * a ≤ 93 * j) (hl : 3 * a ≤ 10 * j) :
  (2 : ℚ) ^ a ≤ 10 ^ j
  := by
  rcases le_or_gt 0 a with ha | ha
  · apply two_zpow_le_of_le (n := 93) (p := 28) (by decide) _ hu
    exact zpow_le_zpow_left₀ ha (by positivity) (by norm_num)
  · apply two_zpow_le_of_le (n := 10) (p := 3) (by decide) _ hl
    have h : ((10 : ℚ) ^ 3) ^ (-a) ≤ (2 ^ 10) ^ (-a) :=
      zpow_le_zpow_left₀ (by omega) (by positivity) (by norm_num)
    calc ((2 : ℚ) ^ 10) ^ a
      _ = ((2 ^ 10) ^ (-a))⁻¹ := by rw [zpow_neg, inv_inv]
      _ ≤ ((10 ^ 3) ^ (-a))⁻¹ := inv_anti₀ (by positivity) h
      _ = (10 ^ 3) ^ a := by rw [zpow_neg, inv_inv]

/-- Grids beyond the coarsest one have no point in the interval of a float. -/
theorem not_isInInterval_of_coarsest_lt (hm : 0 < m) (hc : IsAligned m q) (hq : q ≤ 971) {k : Int}
    (hk : (of m q).coarsest < k) (n : Nat) :
  ¬ IsInInterval m q (n * 10 ^ k)
  := by
  intro h
  have hn := h.coefficient_pos hc hm
  have hlog : (of m q).upper.log2 < 56 := by
    have hlt := hc.lt
    apply (Nat.log2_lt _).mpr
    · rw [upper_roundingInterval]
      omega
    · rw [upper_roundingInterval]
      omega
  have he : (of m q).exponent = q - 2 := rfl
  have hq' := hc.le_exponent
  have hle : (2 : ℚ) ^ (((of m q).upper.log2 : Int) + 1 + (q - 2)) ≤ 10 ^ k := by
    rw [coarsest, he] at hk
    apply two_zpow_le_ten_zpow <;> omega
  apply not_lt_of_ge hle
  calc (10 : ℚ) ^ k
    _ ≤ n * 10 ^ k := by
      apply le_mul_of_one_le_left (by positivity)
      exact_mod_cast hn
    _ ≤ (of m q).upper * 2 ^ (q - 2) := h.ge
    _ < 2 ^ ((of m q).upper.log2 + 1) * 2 ^ (q - 2) := by
      apply mul_lt_mul_of_pos_right _ (by positivity)
      exact_mod_cast Nat.lt_log2_self
    _ = 2 ^ (((of m q).upper.log2 : Int) + 1 + (q - 2)) := by
      apply two_pow_mul
      omega

end RoundingInterval

end SliderCalculator
