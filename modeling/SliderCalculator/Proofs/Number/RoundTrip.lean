import SliderCalculator.Number.Layout
import SliderCalculator.Number.Numeral
import SliderCalculator.Proofs.Number.Scientific
import SliderCalculator.Proofs.Number.Shortest
import SliderCalculator.Proofs.Number.Text
import SliderCalculator.Proofs.TakeWhile

/-!
# Writing and reading back

The text of a finite number without a sign is a numeral, and the numeral is read as that
number: its value is the shortest decimal of the number, which lies in the rounding
interval.
-/

namespace SliderCalculator

namespace Numeral

/-- The numeral with digits before and after the point. -/
def plain (whole fraction : Text) : Numeral where
  negative := false
  whole := whole
  fraction := fraction
  exponent := 0

theorem ofDigits_eq (digits : Text) :
  ofDigits digits = Nat.ofDigitChars 10 digits 0
  := rfl

theorem ofDigits_append (s t : Text) :
  ofDigits (s ++ t) = 10 ^ t.length * ofDigits s + ofDigits t
  := by
  simp only [ofDigits_eq]
  rw [Nat.ofDigitChars_append, Nat.ofDigitChars_eq_ofDigitChars_zero]

theorem ofDigits_replicate (n : Nat) :
  ofDigits (List.replicate n '0') = 0
  := by
  rw [ofDigits_eq, Nat.ofDigitChars_replicate_zero, Nat.mul_zero]

theorem ofDigits_digits (n : Nat) :
  ofDigits (Decimal.digits n) = n
  := Nat.ofDigitChars_ten_toDigits

variable {whole fraction : Text}

/-- Digits and what follows them are read as a numeral when what follows is read as a
fraction. -/
theorem read?_append (hn : whole ≠ []) (hw : ∀ c ∈ whole, c.isDigit = true) {t : Text}
    (ht : ∀ c ∈ t.head?, c.isDigit = false) (hf : readFraction t = (fraction, [])) :
  read? (whole ++ t) = some (plain whole fraction)
  := by
  cases whole with
  | nil => contradiction
  | cons c cs =>
    have hs := span_append hw ht
    rw [List.cons_append] at hs ⊢
    have hc := Text.isAlphanum_iff.mpr (.inr (hw c List.mem_cons_self))
    rw [read?, readSign_of_isAlphanum hc]
    simp only [hs, hf]
    rfl

/-- Digits are read as a whole number. -/
theorem read?_whole (hn : whole ≠ []) (hw : ∀ c ∈ whole, c.isDigit = true) :
  read? whole = some (plain whole [])
  := by
  have h := read?_append hn hw (t := []) (by simp) rfl
  rw [List.append_nil] at h
  apply h

/-- Digits with a point among them. -/
theorem read?_point (hn : whole ≠ []) (hw : ∀ c ∈ whole, c.isDigit = true)
    (hf : ∀ c ∈ fraction, c.isDigit = true) :
  read? (whole ++ '.' :: fraction) = some (plain whole fraction)
  := by
  apply read?_append hn hw
  · simp
  · have h := span_append hf (t := []) (by simp)
    rw [List.append_nil] at h
    apply h

/-- The value of a numeral. -/
def value (n : Numeral) : ℚ :=
  n.coefficient * 10 ^ n.scale

theorem value_plain (whole fraction : Text) :
  (plain whole fraction).value = ofDigits (whole ++ fraction) * 10 ^ (-(fraction.length : Int))
  := by
  rw [value, coefficient, scale]
  simp only [plain, zero_sub]

/-! ### Positional numerals -/

theorem isDigit_of_mem_zeros {n : Nat} {c : Char} (h : c ∈ List.replicate n '0') :
  c.isDigit = true
  := by
  obtain rfl := List.eq_of_mem_replicate h
  rfl

variable {digits : Text} (hd : ∀ c ∈ digits, c.isDigit = true)

include hd in
/-- Digits behind the point, with zeros between. -/
theorem read?_zeros_append (n : Nat) :
  read? ('0' :: '.' :: (List.replicate n '0' ++ digits))
    = some (plain ['0'] (List.replicate n '0' ++ digits))
  := by
  apply read?_point (List.cons_ne_nil '0' [])
  · intro c hc
    obtain rfl := List.mem_singleton.mp hc
    rfl
  · intro c hc
    obtain hc | hc := List.mem_append.mp hc
    · apply isDigit_of_mem_zeros hc
    · apply hd c hc

theorem value_zeros_append (n : Nat) (digits : Text) :
  (plain ['0'] (List.replicate n '0' ++ digits)).value
    = ofDigits digits * 10 ^ (-(n + digits.length : Int))
  := by
  have h0 : ofDigits ['0'] = 0 := rfl
  rw [value_plain, ofDigits_append, ofDigits_append, ofDigits_replicate, List.length_append,
    List.length_replicate, h0, Nat.mul_zero, Nat.mul_zero, Nat.zero_add, Nat.zero_add]
  push_cast
  rfl

include hd in
/-- Digits before the point, followed by zeros. -/
theorem read?_append_zeros (hn : digits ≠ []) (n : Nat) :
  read? (digits ++ List.replicate n '0') = some (plain (digits ++ List.replicate n '0') [])
  := by
  apply read?_whole (List.append_ne_nil_of_left_ne_nil hn _)
  intro c hc
  obtain hc | hc := List.mem_append.mp hc
  · apply hd c hc
  · apply isDigit_of_mem_zeros hc

theorem value_append_zeros (digits : Text) (n : Nat) :
  (plain (digits ++ List.replicate n '0') []).value = ofDigits digits * 10 ^ (n : Int)
  := by
  rw [value_plain, List.append_nil, ofDigits_append, ofDigits_replicate, List.length_replicate,
    zpow_natCast]
  push_cast
  simp
  ring

include hd in
/-- Digits with the point among them. -/
theorem read?_take_drop {n : Nat} (h : 0 < n) (hl : n < digits.length) :
  read? (digits.take n ++ '.' :: digits.drop n) = some (plain (digits.take n) (digits.drop n))
  := by
  apply read?_point
  · apply List.ne_nil_of_length_pos
    rw [List.length_take]
    omega
  · intro c hc
    apply hd c (List.mem_of_mem_take hc)
  · intro c hc
    apply hd c (List.mem_of_mem_drop hc)

theorem value_take_drop (digits : Text) {n : Nat} (hl : n < digits.length) :
  (plain (digits.take n) (digits.drop n)).value
    = ofDigits digits * 10 ^ (n - digits.length : Int)
  := by
  rw [value_plain, List.take_append_drop, List.length_drop]
  congr 2
  omega

end Numeral

open Numeral

/-- A number that is written positionally is read as a numeral of the same value. -/
theorem Number.read?_positional {digits : Text} (hn : digits ≠ [])
    (hd : ∀ c ∈ digits, c.isDigit = true) (point : Int) :
  ∃ whole fraction, Numeral.read? (positional [] digits point) = some (plain whole fraction)
    ∧ (plain whole fraction).value = ofDigits digits * 10 ^ (point - digits.length)
  := by
  rw [positional]
  split
  case isTrue h =>
    use ['0'], List.replicate (-point).toNat '0' ++ digits, read?_zeros_append hd _
    rw [value_zeros_append]
    congr 2
    omega
  case isFalse h =>
    split
    case isTrue h' =>
      use digits ++ List.replicate (point.toNat - digits.length) '0', []
      rw [List.append_nil, value_append_zeros]
      constructor
      · apply read?_append_zeros hd hn
      · congr 2
        omega
    case isFalse h' =>
      use digits.take point.toNat, digits.drop point.toNat
      rw [value_take_drop digits (by omega)]
      constructor
      · apply read?_take_drop hd <;> omega
      · congr 2
        omega

namespace Number

open Float.Model (UnpackedFloat)

variable {x : Float} {m : Nat} {q : Int} {hm : 0 < m}

/-- A decimal in the rounding interval of a float is read as the float. -/
theorem toFloat_plain {whole fraction : Text} (hx : x.toModel.unpack = .finite .positive m q hm)
    (hc : IsCanonical m q) (hv : IsInInterval m q (plain whole fraction).value) :
  (plain whole fraction).toFloat = x
  := by
  have h := ofScientific_of_isCanonical hc hv
  rw [toFloat, Float.Model.ofScientific, h, ← hx, ofModel_pack_unpack]
  rfl

/-- The text of a number is read as a numeral whose value is the shortest decimal of the number. -/
theorem IsUnsigned.read?_text_of_finite (h : IsUnsigned x)
    (hx : x.toModel.unpack = .finite .positive m q hm) :
  ∃ whole fraction, Numeral.read? (text x) = some (plain whole fraction)
    ∧ (plain whole fraction).value
      = (Decimal.shortest m q).coefficient * 10 ^ (Decimal.shortest m q).exponent
  := by
  have hd : ∀ c ∈ Decimal.digits (Decimal.shortest m q).coefficient, c.isDigit = true :=
    fun c hc => Decimal.isDigit_of_mem_digits hc
  obtain ⟨whole, fraction, hr, hv⟩ := read?_positional (Decimal.digits_ne_nil _) hd
    ((Decimal.shortest m q).exponent
      + (Decimal.digits (Decimal.shortest m q).coefficient).length)
  rw [ofDigits_digits, add_sub_cancel_right] at hv
  refine ⟨whole, fraction, ?_, hv⟩
  rw [h.text_eq, hx]
  apply hr

/-- The text of a finite number without a sign is read as that number. -/
theorem IsUnsigned.read?_text (h : IsUnsigned x) :
  read? (text x) = some x
  := by
  obtain hu | ⟨m, q, hm, hu, hc⟩ := h.unpack_eq
  · have hr : Numeral.read? ['0'] = some (plain ['0'] []) := rfl
    have hz : (plain ['0'] []).toFloat = x := by
      have h0 : (plain ['0'] []).toFloat = Float.ofModel (.pack (.zero .positive)) := rfl
      rw [h0, ← hu, ofModel_pack_unpack]
    rw [h.text_eq, hu]
    change read? ['0'] = some x
    rw [read?, hr]
    simp only [hz]
  · obtain ⟨whole, fraction, hr, hv⟩ := h.read?_text_of_finite hu
    have hi := Decimal.isInInterval_shortest hm q
    rw [← hv] at hi
    rw [read?, hr]
    simp only [toFloat_plain hu hc hi]

end Number

end SliderCalculator
