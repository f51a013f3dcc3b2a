import SliderCalculator.Text.DecimalDigit

/-!
# Products without a sign

In a formula a letter right after a digit or another letter stands for a product. The sign
`*` is put in between, first after digits, then between letters. A sweep over the text does
not see overlapping pairs of letters, so further sweeps split what is left of a run of
letters until nothing changes. Each sweep that changes the text leaves fewer letters next
to each other, so there is a last one.
-/

namespace SliderCalculator.Formula

/-- Puts `*` between a character of a class and a letter right after it, from left to
right, where no character takes part in two pairs. -/
def splitPairs (isFirst : Char → Bool) : Text → Text
  | c :: d :: t =>
    if isFirst c && d.isAlpha then
      c :: '*' :: d :: splitPairs isFirst t
    else
      c :: splitPairs isFirst (d :: t)
  | t => t

/-- Puts `*` between two letters that follow a letter and `*`, from left to right, where no
character takes part in two such groups. -/
def splitRuns : Text → Text
  | a :: s :: b :: c :: t =>
    if a.isAlpha && s == '*' && b.isAlpha && c.isAlpha then
      a :: s :: b :: '*' :: c :: splitRuns t
    else
      a :: splitRuns (s :: b :: c :: t)
  | t => t

/-- The number of places where two letters stand next to each other. -/
def letterPairs : Text → Nat
  | a :: b :: t => (a.isAlpha && b.isAlpha).toNat + letterPairs (b :: t)
  | _ => 0

/-- Splitting runs of letters keeps the first character. -/
theorem head?_splitRuns (t : Text) :
  (splitRuns t).head? = t.head?
  := by
  unfold splitRuns
  split
  · split <;> rfl
  · rfl

/-- How many letters stand next to each other depends on the first character of the rest
only through that character. -/
theorem letterPairs_cons (c : Char) (t : Text) :
  letterPairs (c :: t)
    = (c.isAlpha && (t.head?.map Char.isAlpha).getD false).toNat + letterPairs t
  := by
  cases t <;> simp [letterPairs]

/-- Each sign that is put in separates two letters. -/
theorem letterPairs_splitRuns (t : Text) :
  letterPairs (splitRuns t) + (splitRuns t).length = letterPairs t + t.length
  := by
  fun_induction splitRuns t with
  | case1 a s b c t h ih =>
    simp only [Bool.and_eq_true, beq_iff_eq] at h
    obtain ⟨⟨⟨ha, hs⟩, hb⟩, hc⟩ := h
    simp only [letterPairs_cons, List.head?_cons, Option.map_some, Option.getD_some,
      head?_splitRuns, List.length_cons, ha, hb, hc, hs, Bool.true_and]
    have : ('*' : Char).isAlpha = false := rfl
    simp only [this, Bool.false_and, Bool.toNat_false, Bool.toNat_true]
    omega
  | case2 a s b c t h ih =>
    rw [letterPairs_cons, head?_splitRuns, letterPairs_cons a]
    simp only [List.length_cons] at ih ⊢
    omega
  | case3 t h => rfl

/-- Splitting runs of letters does not shorten a text. -/
theorem length_le_length_splitRuns (t : Text) :
  t.length ≤ (splitRuns t).length
  := by
  fun_induction splitRuns t with
  | case1 a s b c t h ih => simp only [List.length_cons]; omega
  | case2 a s b c t h ih => simp only [List.length_cons] at ih ⊢; omega
  | case3 t h => exact Nat.le_refl _

/-- A text that keeps its length under the splitting of runs is kept. -/
theorem splitRuns_eq_self {t : Text} (h : (splitRuns t).length = t.length) :
  splitRuns t = t
  := by
  fun_induction splitRuns t with
  | case1 a s b c t hl ih =>
    have := length_le_length_splitRuns t
    simp only [List.length_cons] at h
    omega
  | case2 a s b c t hl ih =>
    rw [ih (by simpa using h)]
  | case3 t hl => rfl

/-- A sweep that changes a text leaves fewer letters next to each other. -/
theorem letterPairs_splitRuns_lt {t : Text} (h : splitRuns t ≠ t) :
  letterPairs (splitRuns t) < letterPairs t
  := by
  have hs := letterPairs_splitRuns t
  have hl := length_le_length_splitRuns t
  have hn : (splitRuns t).length ≠ t.length := fun he => h (splitRuns_eq_self he)
  omega

/-- Splits runs of letters until nothing changes. -/
def splitAllRuns (t : Text) : Text :=
  if _ : splitRuns t = t then t else splitAllRuns (splitRuns t)
termination_by letterPairs t
decreasing_by exact letterPairs_splitRuns_lt ‹_›

/-- The text with `*` for the products that are written without a sign. -/
def insertProducts (t : Text) : Text :=
  splitAllRuns (splitPairs Char.isAlpha (splitPairs Text.isDecimalDigit t))

end SliderCalculator.Formula
