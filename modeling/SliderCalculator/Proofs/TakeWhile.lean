import Mathlib.Data.List.TakeDrop
import Mathlib.Data.List.TakeWhile

/-!
# The start of a list

The digits of a numeral, the characters of an operand and the tokens that are taken off a stack are
found in one way: a list starts with a longest run of members of a class, `takeWhile`, which
`dropWhile` follows.
-/

namespace SliderCalculator

variable {α : Type} {p : α → Bool} {s t : List α}

/-- A run starts with a member of its class. -/
theorem all_cons_takeWhile {a : α} (ha : p a = true) (t : List α) :
  ∀ b ∈ a :: t.takeWhile p, p b = true
  := by
  intro b hb
  obtain rfl | hb := List.mem_cons.mp hb
  · apply ha
  · apply List.mem_takeWhile_imp hb

/-- A run and what follows it are the whole list. -/
theorem cons_eq_takeWhile_append (p : α → Bool) (a : α) (t : List α) :
  a :: t = (a :: t.takeWhile p) ++ t.dropWhile p
  := by
  rw [List.cons_append, List.takeWhile_append_dropWhile]

/-- A run is not followed by another member of its class. -/
theorem head?_dropWhile :
  ∀ a ∈ (t.dropWhile p).head?, p a = false
  := by
  intro a ha
  have h := List.head?_dropWhile_not p t
  rw [ha] at h
  apply h

/-- A run does not go beyond the end of a list that no member of its class follows. -/
theorem takeWhile_dropWhile_append (s : List α) (ht : ∀ a ∈ t.head?, p a = false) :
  (s ++ t).takeWhile p = s.takeWhile p ∧ (s ++ t).dropWhile p = s.dropWhile p ++ t
  := by
  induction s with
  | nil =>
    cases t with
    | nil => simp
    | cons a t => simp [ht a rfl]
  | cons a s ih => cases ha : p a <;> simp [ha, ih]

/-- Members of a class are a run where no other one follows them. -/
theorem takeWhile_dropWhile_append_of_forall (hs : ∀ a ∈ s, p a = true)
    (ht : ∀ a ∈ t.head?, p a = false) :
  (s ++ t).takeWhile p = s ∧ (s ++ t).dropWhile p = t
  := by
  obtain ⟨htake, hdrop⟩ := takeWhile_dropWhile_append s ht
  rw [htake, hdrop, List.takeWhile_eq_self_iff.mpr hs, List.dropWhile_eq_nil_iff.mpr hs]
  exact ⟨rfl, rfl⟩

/-- Where a run ends, a list is divided. -/
theorem span_append (hs : ∀ a ∈ s, p a = true) (ht : ∀ a ∈ t.head?, p a = false) :
  (s ++ t).span p = (s, t)
  := by
  obtain ⟨htake, hdrop⟩ := takeWhile_dropWhile_append_of_forall hs ht
  rw [List.span_eq_takeWhile_dropWhile, htake, hdrop]

end SliderCalculator
