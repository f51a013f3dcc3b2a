import Mathlib.Data.List.Chain
import SliderCalculator.Formula.Product

/-!
# Sweeps over runs of letters

A sweep over pairs of letters separates every other pair of a run, so letters are left next to each
other only right after a letter and `*`. A sweep over what is left of the runs separates every other
one of these, and the next sweep all others. So two sweeps are enough, however long the runs are:
`exists_sweeps`.
-/

namespace SliderCalculator.Formula

/-- A sweep over pairs keeps the first character. -/
theorem head?_splitPairs (isFirst : Char → Bool) (t : Text) :
  (splitPairs isFirst t).head? = t.head?
  := by
  unfold splitPairs
  split
  · split <;> rfl
  · rfl

/-- Whether letters stand next to each other only right after three characters of a kind. The
three characters before the text are given. -/
def PairsFollow (P : Char → Char → Char → Prop) (w x y : Char) : Text → Prop
  | b :: t =>
    (∀ c ∈ t.head?, b.isAlpha = true → c.isAlpha = true → P w x y) ∧ PairsFollow P x y b t
  | [] => True

/-- Next to `*` there is no pair of letters. -/
theorem pairsFollow_cons_star {P : Char → Char → Char → Prop} {w x y b : Char} {t : Text} :
  PairsFollow P w x y (b :: '*' :: t) ↔ PairsFollow P y b '*' t
  := by
  constructor
  · rintro ⟨-, -, h⟩
    apply h
  · intro h
    refine ⟨?_, ?_, h⟩
    · rintro _ ⟨⟩ _ hs
      contradiction
    · rintro _ _ hs
      contradiction

/-- Whether the last two of three characters are a letter and `*`. -/
def IsGuard (_ x y : Char) : Prop :=
  x.isAlpha = true ∧ y = '*'

/-- Whether three characters are no letter, a letter and `*`. -/
def IsLoneGuard (w x y : Char) : Prop :=
  w.isAlpha = false ∧ IsGuard w x y

/-- The second sweep leaves letters next to each other only right after a letter and `*`. -/
theorem pairsFollow_splitPairs_isAlpha (t : Text) (w x y : Char) :
  PairsFollow IsGuard w x y (splitPairs Char.isAlpha t)
  := by
  fun_induction splitPairs Char.isAlpha t generalizing w x y with
  | case1 c d t hcd ih =>
    obtain ⟨hc, -⟩ := Bool.and_eq_true_iff.mp hcd
    rw [pairsFollow_cons_star]
    refine ⟨?_, ih _ _ _⟩
    intro _ _ _ _
    exact ⟨hc, rfl⟩
  | case2 c d t hcd ih =>
    refine ⟨?_, ih _ _ _⟩
    rw [head?_splitPairs]
    rintro _ ⟨⟩ hc hd
    simp [hc, hd] at hcd
  | case3 t ht =>
    match t with
    | [] => trivial
    | [c] => simp [PairsFollow]
    | c :: d :: u => apply (ht c d u rfl).elim

namespace PairsFollow

variable {P Q : Char → Char → Char → Prop} {w x y : Char} {t : Text}

/-- A text without letters next to each other. -/
theorem isChain (h : PairsFollow (fun _ _ _ => False) w x y t) :
  t.IsChain fun a b => (a.isAlpha && b.isAlpha) = false
  := by
  induction t generalizing w x y with
  | nil => exact .nil
  | cons b t ih =>
    obtain ⟨hb, ht⟩ := h
    apply (ih ht).cons
    intro c hc
    apply eq_false_of_ne_true
    intro hbc
    obtain ⟨hba, hca⟩ := Bool.and_eq_true_iff.mp hbc
    exact hb c hc hba hca

/-- A sweep over runs keeps a text without letters next to each other. -/
theorem splitRuns_eq (h : PairsFollow (fun _ _ _ => False) w x y t) :
  splitRuns t = t
  := by
  fun_induction splitRuns t generalizing w x y with
  | case1 a s b c t hm ih =>
    simp only [Bool.and_eq_true] at hm
    obtain ⟨-, -, hbc, -⟩ := h
    exact (hbc c rfl hm.1.2 hm.2).elim
  | case2 a s b c t hm ih => rw [ih h.2]
  | case3 t ht => rfl

/-- The first three characters have two places for letters next to each other. -/
theorem take_three (h₁ : ∀ a b u, t = a :: b :: u → a.isAlpha = true → b.isAlpha = true → Q w x y)
    (h₂ : ∀ a b c u, t = a :: b :: c :: u → b.isAlpha = true → c.isAlpha = true → Q x y a) :
  PairsFollow Q w x y (t.take 3)
  := by
  match t with
  | [] => trivial
  | [a] => simp [PairsFollow]
  | [a, b] =>
    refine ⟨?_, ?_⟩
    · rintro _ ⟨⟩
      apply h₁ a b _ rfl
    · simp [PairsFollow]
  | a :: b :: c :: u =>
    refine ⟨?_, ?_, ?_⟩
    · rintro _ ⟨⟩
      apply h₁ a b _ rfl
    · rintro _ ⟨⟩
      apply h₂ a b c _ rfl
    · simp [PairsFollow]

/-- A text that is too short for a sweep over runs to change it. -/
theorem take_of_short (h : ∀ (a s b c : Char) (u : Text), t = a :: s :: b :: c :: u → False) :
  t.take 3 = t
  := by
  match t with
  | [] | [_] | [_, _] | [_, _, _] => rfl
  | a :: s :: b :: c :: u => apply (h a s b c u rfl).elim

/-- Where letters stand next to each other only after a letter and `*`, a sweep over runs separates
all of them but those whose letter before `*` it has used for the letters further before. Of the
three characters before the text the first two are given as they are before and after the sweep. -/
theorem splitRuns_start (hP : ∀ w x y, P w x y → IsGuard w x y)
    (hQ : ∀ b c, b.isAlpha = true → P b c '*' → Q '*' c '*') {w' x' : Char}
    (h : PairsFollow P w x y t) (hstart : PairsFollow Q w' x' y (t.take 3)) :
  PairsFollow Q w' x' y (splitRuns t)
  := by
  fun_induction splitRuns t generalizing w x y w' x' with
  | case1 a s b c t hm ih =>
    simp only [Bool.and_eq_true, beq_iff_eq] at hm
    obtain ⟨⟨⟨ha, rfl⟩, hb⟩, hc⟩ := hm
    rw [pairsFollow_cons_star] at h
    obtain ⟨-, hct, ht⟩ := h
    rw [pairsFollow_cons_star, pairsFollow_cons_star]
    refine ⟨?_, ih ht (take_three ?_ ?_)⟩
    · rw [head?_splitRuns]
      intro d hd hc' hd'
      obtain ⟨hs, -⟩ := hP _ _ _ (hct d hd hc' hd')
      contradiction
    · rintro d e u rfl hd he
      obtain ⟨-, rfl⟩ := hP _ _ _ (ht.1 e rfl hd he)
      contradiction
    · -- these two stand after the last letter that has been used
      rintro d e f u rfl he hf
      have hd := ht.2.1 f rfl he hf
      obtain ⟨-, rfl⟩ := hP _ _ _ hd
      exact hQ b c hb hd
  | case2 a s b c t hm ih =>
    obtain ⟨-, h⟩ := h
    obtain ⟨h₁, h₂, -⟩ := hstart
    refine ⟨?_, ih h (take_three ?_ ?_)⟩
    · rw [head?_splitRuns]
      apply h₁
    · rintro _ _ _ ⟨⟩
      apply h₂ b rfl
    · rintro _ _ _ _ ⟨⟩ hb hc
      -- the sweep would have put a sign between these two
      obtain ⟨ha, rfl⟩ := hP _ _ _ (h.2.1 c rfl hb hc)
      simp [ha, hb, hc] at hm
  | case3 t ht =>
    rw [take_of_short ht] at hstart
    apply hstart

/-- A sweep over runs of a whole text. -/
theorem splitRuns (hP : ∀ w x y, P w x y → IsGuard w x y)
    (hQ : ∀ b c, b.isAlpha = true → P b c '*' → Q '*' c '*') (h : PairsFollow P ' ' ' ' ' ' t) :
  PairsFollow Q ' ' ' ' ' ' (splitRuns t)
  := by
  apply h.splitRuns_start hP hQ
  apply take_three
  · rintro a b u rfl ha hb
    obtain ⟨hs, -⟩ := hP _ _ _ (h.1 b rfl ha hb)
    contradiction
  · rintro a b c u rfl hb hc
    obtain ⟨hs, -⟩ := hP _ _ _ (h.2.1 c rfl hb hc)
    contradiction

/-- After the second sweep a sweep over runs leaves letters next to each other only where the letter
before `*` has no letter before it. -/
theorem isLoneGuard (h : PairsFollow IsGuard ' ' ' ' ' ' t) :
  PairsFollow IsLoneGuard ' ' ' ' ' ' (Formula.splitRuns t)
  := h.splitRuns (fun _ _ _ hg => hg) fun _ _ _ hg => ⟨rfl, hg⟩

/-- One more sweep over runs leaves no letters next to each other. -/
theorem noPairs (h : PairsFollow IsLoneGuard ' ' ' ' ' ' t) :
  PairsFollow (fun _ _ _ => False) ' ' ' ' ' ' (Formula.splitRuns t)
  := by
  apply h.splitRuns (fun _ _ _ hg => hg.2)
  rintro b c hb ⟨hn, -⟩
  rw [hb] at hn
  contradiction

end PairsFollow

/-! ### The number of sweeps -/

/-- Whether so many sweeps over runs, each of which changes the text, make a text another one that a
further sweep keeps. -/
inductive Sweeps : Nat → Text → Text → Prop where
  | done {t : Text} (h : splitRuns t = t) : Sweeps 0 t t
  | sweep {n : Nat} {t u : Text} (h : splitRuns t ≠ t) (hs : Sweeps n (splitRuns t) u) :
      Sweeps (n + 1) t u

/-- The last sweeps end with the text that sweeps lead to. -/
theorem Sweeps.splitAllRuns_eq {n : Nat} {t u : Text} (h : Sweeps n t u) :
  splitAllRuns t = u
  := by
  induction h with
  | done h => rw [splitAllRuns, dif_pos h]
  | sweep h hs ih => rw [splitAllRuns, dif_neg h, ih]

/-- After the second sweep two more that change the text are enough. -/
theorem exists_sweeps {t : Text} (h : PairsFollow IsGuard ' ' ' ' ' ' t) :
  ∃ n ≤ 2, Sweeps n t (splitRuns (splitRuns t))
  := by
  by_cases h₁ : splitRuns t = t
  · use 0, Nat.zero_le 2
    rw [h₁, h₁]
    exact .done h₁
  by_cases h₂ : splitRuns (splitRuns t) = splitRuns t
  · use 1, by decide
    rw [h₂]
    exact .sweep h₁ (.done h₂)
  · use 2, Nat.le_refl 2
    exact .sweep h₁ (.sweep h₂ (.done h.isLoneGuard.noPairs.splitRuns_eq))

/-- The last sweeps leave no letters next to each other. -/
theorem isChain_isAlpha_splitAllRuns {t : Text} (h : PairsFollow IsGuard ' ' ' ' ' ' t) :
  (splitAllRuns t).IsChain fun a b => (a.isAlpha && b.isAlpha) = false
  := by
  obtain ⟨n, -, hs⟩ := exists_sweeps h
  rw [hs.splitAllRuns_eq]
  apply h.isLoneGuard.noPairs.isChain

end SliderCalculator.Formula
