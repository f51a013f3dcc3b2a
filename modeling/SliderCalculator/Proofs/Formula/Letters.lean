import SliderCalculator.Formula.Alphabet

/-!
# The letters of a formula

The letters of a formula are listed in the order in which they first appear, each of them
once: `listsLetters_letters`.
-/

namespace SliderCalculator.Formula

/-- Whether a list names the letters of a text, each of them once, and in the order in which
they first appear. -/
structure ListsLetters (names : List Char) (t : Text) : Prop where
  nodup : names.Nodup
  mem_iff : ∀ c, c ∈ names ↔ c ∈ t ∧ c.isAlpha = true
  ordered : names.Pairwise fun a b => t.idxOf a < t.idxOf b

/-- The letters of a formula are the characters of it that are letters. -/
theorem mem_letters {formula : Text} {c : Char} :
  c ∈ letters formula ↔ c ∈ formula ∧ c.isAlpha = true
  := by
  rw [letters, List.mem_eraseDups, List.mem_filter]

/-- The characters of a class stand in the order in which they first appear once repetitions
are erased. -/
theorem pairwise_idxOf_eraseDups (p : Char → Bool) (t : Text) :
  (t.filter p).eraseDups.Pairwise fun a b => t.idxOf a < t.idxOf b
  := by
  induction t generalizing p with
  | nil => exact .nil
  | cons c t ih =>
    have hc : ∀ b, b ≠ c → (c :: t).idxOf b = t.idxOf b + 1 := by
      intro b hb
      rw [List.idxOf_cons, beq_false_of_ne hb.symm, cond_false]
    -- the characters other than the first one, which come one place later than in the rest
    have later : ∀ q : Char → Bool, (∀ b, q b = true → b ≠ c) →
        (t.filter q).eraseDups.Pairwise fun a b => (c :: t).idxOf a < (c :: t).idxOf b := by
      intro q hq
      apply (ih q).imp_of_mem
      intro a b ha hb hab
      rw [List.mem_eraseDups, List.mem_filter] at ha hb
      rw [hc a (hq a ha.2), hc b (hq b hb.2)]
      omega
    have ne_of_separated {b : Char} (hb : (!b == c && p b) = true) : b ≠ c := by
      simp only [Bool.and_eq_true, Bool.not_eq_true', beq_eq_false_iff_ne] at hb
      apply hb.1
    cases hp : p c with
    | true =>
      rw [List.filter_cons_of_pos hp, List.eraseDups_cons, List.filter_filter]
      apply List.Pairwise.cons
      · intro b hb
        rw [List.mem_eraseDups, List.mem_filter] at hb
        rw [List.idxOf_cons_self, hc b (ne_of_separated hb.2)]
        omega
      · apply later
        intro b hb
        apply ne_of_separated hb
    | false =>
      rw [List.filter_cons_of_neg (by rw [hp]; decide)]
      apply later
      rintro b hb rfl
      rw [hp] at hb
      contradiction

/-- The letters of a formula are listed. -/
theorem listsLetters_letters (formula : Text) :
  ListsLetters (letters formula) formula
  := by
  constructor
  · apply nodup_letters
  · intro c
    apply mem_letters
  · apply pairwise_idxOf_eraseDups

end SliderCalculator.Formula
