import SliderCalculator.Proofs.Number.Order
import SliderCalculator.Proofs.Number.RoundTrip

/-!
# The signs of numbers

Of the numbers that are not below zero only one is written with a minus sign, the negative zero:
`eq_negativeZero`. A decimal that is written without a sign and without an exponent denotes a
number that is not below zero, however many digits it has: `IsDecimal.exists_read?`.
-/

namespace SliderCalculator

namespace Number

open Float.Model (UnpackedFloat)
open Float.Model.UnpackedFloat (Sign)

/-- Whether the text of a float starts with a minus sign. -/
def IsSigned (x : Float) : Prop :=
  Layout.isNegative x.toModel.unpack = true

instance (x : Float) : Decidable (IsSigned x) :=
  inferInstanceAs (Decidable (_ = true))

variable {x : Float}

theorem isSigned_iff :
  IsSigned x ↔ sign? x.toModel.unpack = some .negative
  := by
  rw [IsSigned]
  cases x.toModel.unpack with
  | notANumber => exact iff_of_false Bool.false_ne_true nofun
  | infinity s | zero s | finite s =>
    cases s with
    | positive => exact iff_of_false Bool.false_ne_true nofun
    | negative => exact iff_of_true rfl rfl

/-- A number without a sign is written without a minus sign. -/
theorem IsUnsigned.not_isSigned (h : IsUnsigned x) :
  ¬ IsSigned x
  := by
  obtain hu | ⟨m, q, hm, hu, -⟩ := h.unpack_eq <;>
  · rw [IsSigned, hu]
    exact Bool.false_ne_true

/-- A finite number that is written without a minus sign has none. -/
theorem isUnsigned_of_not_isSigned (hf : x.isFinite = true) (hs : ¬ IsSigned x) :
  IsUnsigned x
  := by
  refine ⟨hf, ?_⟩
  change x.toModel.unpack.isFinite = true at hf
  rw [isSigned_iff] at hs
  have hb := ofBitVec_unpackSign x
  apply eq_false_of_ne_true
  intro hm
  rw [hm, if_pos rfl] at hb
  cases hu : x.toModel.unpack with
  | notANumber | infinity =>
    rw [hu] at hf
    contradiction
  | zero s =>
    rw [hu, sign_of_unpack_eq_zero _ hu] at hs
    apply hs (congrArg some hb)
  | finite s m q h =>
    rw [hu, (isCanonical_of_unpack_eq_finite _ hu).1] at hs
    apply hs (congrArg some hb)

/-- The text of a float without its sign. -/
def magnitude (x : Float) : Text :=
  valueLayout.magnitude x.toModel.unpack

theorem text_of_isSigned (h : IsSigned x) :
  text x = '-' :: magnitude x
  := if_pos h

theorem text_of_not_isSigned (h : ¬ IsSigned x) :
  text x = magnitude x
  := if_neg h

theorem unpack_zero :
  (0 : Float).toModel.unpack = .zero .positive
  := rfl

theorem unpack_negativeZero :
  (-0.0 : Float).toModel.unpack = .zero .negative
  := rfl

/-- A float whose sign is positive is not below zero. -/
theorem zero_le (h : sign? x.toModel.unpack = some .positive) :
  0 ≤ x
  := by
  rw [le_iff_compare, unpack_zero]
  cases hu : x.toModel.unpack with
  | notANumber =>
    rw [hu] at h
    contradiction
  | infinity s | zero s | finite s =>
    rw [hu] at h
    cases h
    rfl

/-- A finite number is not below zero, or it is less. -/
theorem zero_le_iff (hx : x.isFinite = true) :
  0 ≤ x ↔ ¬ x < 0
  := le_iff_not_lt (by decide +kernel) (isNaN_of_isFinite hx)

/-- The only number not below zero that has a minus sign is the negative zero. -/
theorem eq_negativeZero (h : 0 ≤ x) (hs : IsSigned x) :
  x = -0.0
  := by
  have hx : x.toModel.unpack = .zero .negative := by
    rw [le_iff_compare, unpack_zero] at h
    rw [isSigned_iff] at hs
    cases hu : x.toModel.unpack with
    | notANumber =>
      rw [hu] at hs
      contradiction
    | zero s =>
      rw [hu] at hs
      cases hs
      rfl
    | infinity s | finite s =>
      rw [hu] at h hs
      cases hs
      contradiction
  rw [← ofModel_pack_unpack x, hx]
  decide +kernel

theorem isSigned_negativeZero :
  IsSigned (-0.0)
  := by
  decide +kernel

/-- The text of a finite number that is not below zero is read as that number. -/
theorem read?_text (hf : x.isFinite = true) (h : 0 ≤ x) :
  read? (text x) = some x
  := by
  by_cases hs : IsSigned x
  · rw [eq_negativeZero h hs]
    decide +kernel
  · apply (isUnsigned_of_not_isSigned hf hs).read?_text

/-- What is not below zero and at most the negative zero is one of the two zeros. -/
theorem eq_zero_of_le (h : x ≤ -0.0) (hn : ¬ x < 0) :
  x = 0.0 ∨ x = -0.0
  := by
  have hx : ∃ s, x.toModel.unpack = .zero s := by
    rw [le_iff_compare, unpack_negativeZero] at h
    rw [lt_iff_compare, unpack_zero] at hn
    cases hu : x.toModel.unpack with
    | zero s => exact ⟨s, rfl⟩
    | notANumber =>
      rw [hu] at h
      contradiction
    | infinity s | finite s =>
      rw [hu] at h hn
      cases s
      · contradiction
      · contradiction
  obtain ⟨s, hx⟩ := hx
  rw [← ofModel_pack_unpack x, hx]
  cases s <;> decide +kernel

/-- No sum with zero is the negative zero. -/
theorem zero_add_ne (x : Float) :
  0.0 + x ≠ -0.0
  := by
  intro h
  have hadd : 0.0 + x
      = Float.ofModel (.pack (.add .binary64 (.zero .positive) x.toModel.unpack)) := rfl
  rw [hadd] at h
  cases hu : x.toModel.unpack with
  | notANumber =>
    rw [hu] at h
    revert h
    decide +kernel
  | infinity s | zero s =>
    rw [hu] at h
    revert h
    cases s <;> decide +kernel
  | finite s m q hm =>
    -- the sum is the number itself, which is not zero
    have hs : UnpackedFloat.add .binary64 (.zero .positive) x.toModel.unpack
        = x.toModel.unpack := by
      rw [hu]
      rfl
    rw [hs, ofModel_pack_unpack] at h
    rw [h] at hu
    rw [unpack_negativeZero] at hu
    contradiction

end Number

/-! ### Decimals -/

open Number

/-- Whether a text consists of digits with at most one point, which is not the first character. -/
inductive Numeral.IsDecimal : Text → Prop where
  | whole {digits : Text} (hn : digits ≠ []) (hd : ∀ c ∈ digits, c.isDigit = true) :
      IsDecimal digits
  | point {whole fraction : Text} (hn : whole ≠ []) (hw : ∀ c ∈ whole, c.isDigit = true)
      (hf : ∀ c ∈ fraction, c.isDigit = true) : IsDecimal (whole ++ '.' :: fraction)

namespace Numeral

variable {t : Text}

/-- Digits may be put behind a decimal. -/
theorem IsDecimal.append (h : IsDecimal t) {digits : Text} (hd : ∀ c ∈ digits, c.isDigit = true) :
  IsDecimal (t ++ digits)
  := by
  cases h with
  | whole hn ht =>
    apply IsDecimal.whole (List.append_ne_nil_of_left_ne_nil hn _)
    intro c hc
    apply (List.mem_append.mp hc).elim (ht c) (hd c)
  | point hn hw hf =>
    rw [List.append_assoc]
    apply IsDecimal.point hn hw
    intro c hc
    apply (List.mem_append.mp hc).elim (hf c) (hd c)

/-- A numeral without a sign denotes a number without one. -/
theorem sign?_toFloat_plain (whole fraction : Text) :
  sign? (plain whole fraction).toFloat.toModel.unpack = some .positive
  := by
  rw [toFloat]
  apply (sign?_ofModel_pack _).trans
  generalize (plain whole fraction).coefficient = m
  generalize (plain whole fraction).scale = e
  fun_cases Float.Model.UnpackedFloat.ofScientific .binary64 m e with
  | case1 | case2 | case3 => rfl
  | case4 | case5 => apply sign?_roundWithAccuracy

/-- A decimal denotes a number that is not below zero. -/
theorem IsDecimal.exists_read? (h : IsDecimal t) :
  ∃ x, Number.read? t = some x ∧ 0 ≤ x
  := by
  have hr : ∃ whole fraction, Numeral.read? t = some (plain whole fraction) := by
    cases h with
    | whole hn hd => exact ⟨_, _, read?_whole hn hd⟩
    | point hn hw hf => exact ⟨_, _, read?_point hn hw hf⟩
  obtain ⟨whole, fraction, hr⟩ := hr
  exact ⟨(plain whole fraction).toFloat, by rw [Number.read?, hr],
    zero_le (sign?_toFloat_plain whole fraction)⟩

end Numeral

namespace Number

/-- A number that is written positionally is a decimal. -/
theorem isDecimal_positional {digits : Text} (hn : digits ≠ [])
    (hd : ∀ c ∈ digits, c.isDigit = true) (point : Int) :
  Numeral.IsDecimal (positional [] digits point)
  := by
  rw [positional]
  split
  · have hz : ∀ c ∈ ['0'], c.isDigit = true := List.forall_mem_singleton.mpr rfl
    apply Numeral.IsDecimal.point (List.cons_ne_nil '0' []) hz
    intro c hc
    obtain hc | hc := List.mem_append.mp hc
    · apply Numeral.isDigit_of_mem_zeros hc
    · apply hd c hc
  next hp =>
    split
    · rw [List.append_nil]
      apply (Numeral.IsDecimal.whole hn hd).append
      exact fun c hc => Numeral.isDigit_of_mem_zeros hc
    · apply Numeral.IsDecimal.point
      · rw [← List.length_pos_iff, List.length_take]
        have hl := List.length_pos_iff.mpr hn
        omega
      · exact fun c hc => hd c (List.mem_of_mem_take hc)
      · exact fun c hc => hd c (List.mem_of_mem_drop hc)

/-- A finite number without its sign is written as a decimal. -/
theorem isDecimal_magnitude {u : Float.Model.UnpackedFloat} (hu : u.isFinite = true) :
  Numeral.IsDecimal (valueLayout.magnitude u)
  := by
  cases u with
  | notANumber | infinity => contradiction
  | zero s =>
    apply Numeral.IsDecimal.whole (List.cons_ne_nil _ _)
    exact List.forall_mem_singleton.mpr rfl
  | finite s m q hm =>
    apply isDecimal_positional (Decimal.digits_ne_nil _)
    exact fun c hc => Decimal.isDigit_of_mem_digits hc

end Number

end SliderCalculator
