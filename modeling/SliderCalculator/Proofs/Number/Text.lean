import SliderCalculator.Number.Layout
import SliderCalculator.Proofs.Number.Unpacking

/-!
# The characters of numbers

The text of a finite number consists of digits with points and minus signs among them, and
the text of one that has no sign of digits and points only.
-/

namespace SliderCalculator

/-- The text of a natural number consists of digits. -/
theorem Decimal.isDigit_of_mem_digits {n : Nat} {c : Char} (h : c ∈ Decimal.digits n) :
  c.isDigit = true
  := Nat.isDigit_of_mem_toDigits (by decide) (by decide) h

theorem Decimal.digits_ne_nil (n : Nat) :
  Decimal.digits n ≠ []
  := Nat.toDigits_ne_nil

namespace Number

open Float.Model (UnpackedFloat)
open Float.Model.UnpackedFloat (Sign)

/-- What stands in a number that is written positionally. -/
theorem mem_positional {ending digits : Text} {point : Int} {c : Char}
    (h : c ∈ positional ending digits point) :
  c ∈ digits ∨ c ∈ ending ∨ c = '0' ∨ c = '.'
  := by
  unfold positional at h
  split at h
  · simp only [List.mem_cons, List.mem_append, List.mem_replicate] at h
    tauto
  · split at h
    · simp only [List.mem_append, List.mem_replicate] at h
      tauto
    · simp only [List.mem_append, List.mem_cons] at h
      obtain h | h | h := h
      · exact .inl (List.mem_of_mem_take h)
      · exact .inr (.inr (.inr h))
      · exact .inl (List.mem_of_mem_drop h)

theorem positional_ne_nil {digits : Text} (h : digits ≠ []) (ending : Text) (point : Int) :
  positional ending digits point ≠ []
  := by
  unfold positional
  split
  · apply List.cons_ne_nil
  · split <;> simp [h]

/-- The text of a finite number without its sign. -/
theorem mem_magnitude {u : UnpackedFloat} (hu : u.isFinite = true) {c : Char}
    (h : c ∈ valueLayout.magnitude u) :
  c.isDigit = true ∨ c = '.'
  := by
  cases u with
  | notANumber => contradiction
  | infinity s => contradiction
  | zero s =>
    obtain rfl := List.mem_singleton.mp h
    exact .inl rfl
  | finite s m q hm =>
    obtain h | h | rfl | rfl := mem_positional h
    · exact .inl (Decimal.isDigit_of_mem_digits h)
    · contradiction
    · exact .inl rfl
    · exact .inr rfl

/-- The text of a finite number. -/
theorem mem_text {x : Float} (hx : x.isFinite = true) {c : Char} (h : c ∈ text x) :
  c.isDigit = true ∨ c = '.' ∨ c = '-'
  := by
  rw [text, Layout.write] at h
  split at h
  · obtain rfl | h := List.mem_cons.mp h
    · exact .inr (.inr rfl)
    · obtain h | h := mem_magnitude hx h
      · exact .inl h
      · exact .inr (.inl h)
  · obtain h | h := mem_magnitude hx h
    · exact .inl h
    · exact .inr (.inl h)

/-- The text of a finite number holds no letter. -/
theorem isAlpha_of_mem_text {x : Float} (hx : x.isFinite = true) {c : Char} (h : c ∈ text x) :
  c.isAlpha = false
  := by
  apply eq_false_of_ne_true
  intro hc
  rw [Text.isAlpha_iff] at hc
  obtain h | rfl | rfl := mem_text hx h
  · rw [Text.isDigit_iff] at h
    omega
  · contradiction
  · contradiction

/-- A number without a sign is written without a minus sign. -/
theorem IsUnsigned.text_eq {x : Float} (h : IsUnsigned x) :
  text x = valueLayout.magnitude x.toModel.unpack
  := by
  rw [text, Layout.write]
  obtain hu | ⟨m, q, hm, hu, -⟩ := h.unpack_eq <;>
  · rw [hu]
    rfl

end Number

end SliderCalculator
