import Mathlib.Algebra.Order.Ring.Int
import Mathlib.Data.Prod.Lex
import SliderCalculator.Proofs.Number.NotANumber

/-!
# The order of floats

Numbers have a place in a linear order, and comparing them compares their places:
`le_iff_place_le`. Zero has one place, whatever its sign, and a float that is not a number is
neither below nor above any other. What lies between finite numbers is finite.
-/

namespace SliderCalculator.Number

open Float.Model (UnpackedFloat)

/-! ### Places -/

/-- The place of a number: by its sign first, then by the exponent, and by the mantissa last.
Of negative numbers those with the greater exponent and mantissa come first. -/
def place : UnpackedFloat → ℤ ×ₗ ℤ ×ₗ ℤ
  | .infinity .negative => toLex (-2, toLex (0, 0))
  | .finite .negative m q _ => toLex (-1, toLex (-q, -m))
  | .zero _ | .notANumber => toLex (0, toLex (0, 0))
  | .finite .positive m q _ => toLex (1, toLex (q, m))
  | .infinity .positive => toLex (2, toLex (0, 0))

theorem compare_toLex (a b c a' b' c' : ℤ) :
  compare (toLex (a, toLex (b, c))) (toLex (a', toLex (b', c')))
    = (compare a a').then ((compare b b').then (compare c c'))
  := by
  simp only [Prod.Lex.compare_def, compareLex, compareOn, ofLex_toLex]

theorem compare_natCast (m n : ℕ) :
  compare (m : ℤ) n = compare m n
  := by
  rw [← cmp_eq_compare, ← cmp_eq_compare]
  apply Nat.strictMono_cast.cmp_map_eq

theorem compare_neg (a b : ℤ) :
  compare (-a) (-b) = (compare a b).swap
  := by
  rw [← cmp_eq_compare, ← cmp_eq_compare, cmp_swap]
  apply StrictAnti.cmp_map_eq
  apply neg_lt_neg

/-- Comparing numbers compares their places. -/
theorem compare_eq_some {u v : UnpackedFloat} (hu : u.isNaN = false) (hv : v.isNaN = false) :
  u.compare v = some (compare (place u) (place v))
  := by
  cases u with
  | notANumber => contradiction
  | infinity s =>
    cases v with
    | notANumber => contradiction
    | infinity t | zero t => cases s <;> cases t <;> rfl
    | finite t n r hn => cases s <;> cases t <;> unfold place <;> rw [compare_toLex] <;> rfl
  | zero s =>
    cases v with
    | notANumber => contradiction
    | infinity t | zero t => cases t <;> rfl
    | finite t n r hn => cases t <;> unfold place <;> rw [compare_toLex] <;> rfl
  | finite s m q hm =>
    cases v with
    | notANumber => contradiction
    | infinity t | zero t => cases s <;> cases t <;> unfold place <;> rw [compare_toLex] <;> rfl
    | finite t n r hn =>
      cases s <;> cases t <;> unfold place <;> rw [compare_toLex]
      · rw [compare_neg q r, compare_neg m n, compare_natCast, ← Ordering.swap_then]
        rfl
      · rfl
      · rfl
      · rw [compare_natCast]
        rfl

/-! ### Floats -/

variable {x y z : Float}

theorem lt_iff_compare :
  x < y ↔ x.toModel.unpack.compare y.toModel.unpack = some .lt
  := by
  apply decide_eq_true_iff.trans
  apply beq_iff_eq

theorem le_iff_compare :
  x ≤ y ↔ (x.toModel.unpack.compare y.toModel.unpack).any Ordering.isLE = true
  := by
  apply decide_eq_true_iff

theorem beq_iff_compare :
  (x == y) = true ↔ x.toModel.unpack.compare y.toModel.unpack = some .eq
  := by
  change (x.toModel.unpack.compare y.toModel.unpack == some .eq) = true ↔ _
  apply beq_iff_eq

/-- What is at most a float, or at least, is a number. -/
theorem isNaN_of_le (h : x ≤ y) :
  x.isNaN = false ∧ y.isNaN = false
  := by
  rw [le_iff_compare] at h
  change x.toModel.unpack.isNaN = false ∧ y.toModel.unpack.isNaN = false
  generalize x.toModel.unpack = u at h
  generalize y.toModel.unpack = v at h
  constructor
  · cases u with
    | notANumber => contradiction
    | _ => rfl
  · cases v with
    | notANumber => cases u <;> contradiction
    | _ => rfl

section Numbers

variable (hx : x.isNaN = false) (hy : y.isNaN = false)

include hx hy

theorem lt_iff_place_lt :
  x < y ↔ place x.toModel.unpack < place y.toModel.unpack
  := by
  rw [lt_iff_compare, compare_eq_some hx hy, Option.some.injEq, compare_lt_iff_lt]

theorem le_iff_place_le :
  x ≤ y ↔ place x.toModel.unpack ≤ place y.toModel.unpack
  := by
  rw [le_iff_compare, compare_eq_some hx hy, Option.any_some, Ordering.isLE_iff_ne_gt,
    compare_gt_iff_gt, not_lt]

theorem beq_iff_place_eq :
  (x == y) = true ↔ place x.toModel.unpack = place y.toModel.unpack
  := by
  rw [beq_iff_compare, compare_eq_some hx hy, Option.some.injEq, compare_eq_iff_eq]

/-- A number is at most another one exactly when that one is not below it. -/
theorem le_iff_not_lt :
  x ≤ y ↔ ¬ y < x
  := by
  rw [le_iff_place_le hx hy, lt_iff_place_lt hy hx, not_lt]

end Numbers

theorem le_self (hx : x.isNaN = false) :
  x ≤ x
  := (le_iff_place_le hx hx).mpr (le_refl _)

theorem le_trans (hxy : x ≤ y) (hyz : y ≤ z) :
  x ≤ z
  := by
  obtain ⟨hx, hy⟩ := isNaN_of_le hxy
  obtain ⟨-, hz⟩ := isNaN_of_le hyz
  rw [le_iff_place_le hx hy] at hxy
  rw [le_iff_place_le hy hz] at hyz
  rw [le_iff_place_le hx hz]
  apply hxy.trans hyz

/-- What lies between finite numbers is finite. -/
theorem isFinite_of_le_of_le (hx : x.isFinite = true) (hz : z.isFinite = true) (hxy : x ≤ y)
    (hyz : y ≤ z) :
  y.isFinite = true
  := by
  change x.toModel.unpack.isFinite = true at hx
  change z.toModel.unpack.isFinite = true at hz
  change y.toModel.unpack.isFinite = true
  rw [le_iff_compare] at hxy hyz
  generalize x.toModel.unpack = u at hx hxy
  generalize y.toModel.unpack = v at hxy hyz ⊢
  generalize z.toModel.unpack = w at hz hyz
  cases v with
  | zero | finite => rfl
  | notANumber => contradiction
  | infinity s =>
    cases s with
    | positive => cases w <;> contradiction
    | negative => cases u <;> contradiction

end SliderCalculator.Number
