import Mathlib.Data.List.Chain
import Mathlib.Tactic.Tauto
import SliderCalculator.Proofs.Formula.Sweeps

/-!
# Products in one sweep

The sweeps that put signs in between the factors of products come to the same as a single
one that looks at all pairs of neighbours: `insertProducts_eq`. How many sweeps there are is
told in `exists_sweeps_insertProducts`.
-/

namespace SliderCalculator.Formula

/-- Whether two neighbours are the factors of a product. -/
def isProduct (a b : Char) : Bool :=
  (Text.isDecimalDigit a || a.isAlpha) && b.isAlpha

/-- Puts `*` between all neighbours that are the factors of a product. -/
def spellProducts : Text → Text
  | a :: b :: t =>
    if isProduct a b then a :: '*' :: spellProducts (b :: t) else a :: spellProducts (b :: t)
  | t => t

/-- Whether the second text is the first one with `*` left out at some places where it
stands between the factors of a product. -/
inductive Abridges : Text → Text → Prop where
  | nil : Abridges [] []
  | keep (c : Char) {s t : Text} (h : Abridges s t) : Abridges (c :: s) (c :: t)
  | elide {a b : Char} (hab : isProduct a b = true) {s t : Text}
      (h : Abridges (b :: s) (b :: t)) : Abridges (a :: '*' :: b :: s) (a :: b :: t)

theorem isProduct_star_left (b : Char) :
  isProduct '*' b = false
  := rfl

theorem isProduct_star_right (a : Char) :
  isProduct a '*' = false
  := by
  simp only [isProduct, Bool.and_eq_false_iff]
  right
  rfl

namespace Abridges

theorem refl (t : Text) :
  Abridges t t
  := by
  induction t with
  | nil => exact .nil
  | cons c t ih => exact .keep c ih

/-- What is left out is never the first character. -/
theorem head?_eq {s t : Text} (h : Abridges s t) :
  s.head? = t.head?
  := by
  cases h <;> rfl

/-- What is left out is put in again. -/
theorem spellProducts_eq {s t : Text} (h : Abridges s t) :
  spellProducts t = spellProducts s
  := by
  induction h with
  | nil => rfl
  | @keep c s t h ih =>
    have hh := h.head?_eq
    cases s <;> cases t
    · rfl
    · contradiction
    · contradiction
    · cases hh
      simp only [spellProducts, ih]
  | elide hab h ih =>
    simp only [spellProducts, hab, isProduct_star_left, isProduct_star_right, ih]
    simp

/-- What holds of all neighbours, and of all characters next to `*`, still holds with the
signs that were left out. -/
theorem isChain {R : Char → Char → Prop} (hl : ∀ b, R '*' b) (hr : ∀ a, R a '*')
    {s t : Text} (h : Abridges s t) (ht : t.IsChain R) :
  s.IsChain R
  := by
  induction h with
  | nil => exact .nil
  | @keep c s t h ih =>
    obtain ⟨hc, ht⟩ := List.isChain_cons.mp ht
    apply (ih ht).cons
    rw [h.head?_eq]
    apply hc
  | elide hab h ih =>
    obtain ⟨-, ht⟩ := List.isChain_cons_cons.mp ht
    apply List.IsChain.cons_cons (hr _)
    apply List.IsChain.cons_cons (hl _) (ih ht)

end Abridges

/-! ### The sweeps -/

/-- A sweep over pairs puts in signs of products only. -/
theorem abridges_splitPairs {isFirst : Char → Bool}
    (h : ∀ c, isFirst c = true → (Text.isDecimalDigit c || c.isAlpha) = true) (t : Text) :
  Abridges (splitPairs isFirst t) t
  := by
  fun_induction splitPairs isFirst t with
  | case1 c d t hcd ih =>
    obtain ⟨hc, hd⟩ := Bool.and_eq_true_iff.mp hcd
    apply Abridges.elide
    · simp [isProduct, h c hc, hd]
    · exact .keep d ih
  | case2 c d t hcd ih => exact .keep c ih
  | case3 t ht => exact .refl t

theorem abridges_splitPairs_isDecimalDigit (t : Text) :
  Abridges (splitPairs Text.isDecimalDigit t) t
  := abridges_splitPairs (fun c hc => by simp [hc]) t

theorem abridges_splitPairs_isAlpha (t : Text) :
  Abridges (splitPairs Char.isAlpha t) t
  := abridges_splitPairs (fun c hc => by simp [hc]) t

/-- A sweep over runs puts in signs of products only. -/
theorem abridges_splitRuns (t : Text) :
  Abridges (splitRuns t) t
  := by
  fun_induction splitRuns t with
  | case1 a s b c t h ih =>
    simp only [Bool.and_eq_true] at h
    obtain ⟨⟨-, hb⟩, hc⟩ := h
    apply Abridges.keep
    apply Abridges.keep
    apply Abridges.elide
    · simp [isProduct, hb, hc]
    · exact .keep c ih
  | case2 a s b c t h ih => exact .keep a ih
  | case3 t ht => exact .refl t

/-- A text that no two characters match in is too short to have neighbours. -/
theorem isChain_of_short {R : Char → Char → Prop} {t : Text}
    (h : ∀ (c d : Char) (u : Text), t = c :: d :: u → False) :
  t.IsChain R
  := by
  match t with
  | [] => exact .nil
  | [c] => exact .singleton c
  | c :: d :: u => apply (h c d u rfl).elim

theorem isDecimalDigit_and_star (a : Char) :
  (Text.isDecimalDigit a && ('*' : Char).isAlpha) = false
  := by
  rw [Bool.and_eq_false_iff]
  right
  rfl

/-- The first sweep leaves no letter right after a digit. -/
theorem isChain_splitPairs_isDecimalDigit (t : Text) :
  (splitPairs Text.isDecimalDigit t).IsChain fun a b =>
    (Text.isDecimalDigit a && b.isAlpha) = false
  := by
  fun_induction splitPairs Text.isDecimalDigit t with
  | case1 c d t hcd ih =>
    obtain ⟨-, hd⟩ := Bool.and_eq_true_iff.mp hcd
    apply List.IsChain.cons_cons
    · apply isDecimalDigit_and_star c
    · apply List.IsChain.cons_cons
      · rfl
      · apply ih.cons
        intro e _
        rw [Text.isDecimalDigit_of_isAlpha hd, Bool.false_and]
  | case2 c d t hcd ih =>
    apply ih.cons
    rw [head?_splitPairs]
    rintro _ ⟨⟩
    apply eq_false_of_ne_true hcd
  | case3 t ht => apply isChain_of_short ht

/-- The last sweeps put in signs of products only. -/
theorem spellProducts_splitAllRuns (t : Text) :
  spellProducts (splitAllRuns t) = spellProducts t
  := by
  fun_induction splitAllRuns t with
  | case1 t h => rfl
  | case2 t h ih => rw [ih, (abridges_splitRuns t).spellProducts_eq]

/-- The last sweeps keep what holds of all neighbours, and of all characters next to `*`. -/
theorem isChain_splitAllRuns {R : Char → Char → Prop} (hl : ∀ b, R '*' b) (hr : ∀ a, R a '*')
    {t : Text} (h : t.IsChain R) :
  (splitAllRuns t).IsChain R
  := by
  fun_induction splitAllRuns t with
  | case1 t hf => apply h
  | case2 t hf ih => apply ih ((abridges_splitRuns t).isChain hl hr h)

/-! ### All sweeps together -/

/-- After all sweeps no neighbours are the factors of a product. -/
theorem isChain_insertProducts (t : Text) :
  (insertProducts t).IsChain fun a b => isProduct a b = false
  := by
  have hletters : (insertProducts t).IsChain fun a b => (a.isAlpha && b.isAlpha) = false :=
    isChain_isAlpha_splitAllRuns (pairsFollow_splitPairs_isAlpha _ _ _ _)
  have hdigits : (insertProducts t).IsChain fun a b =>
      (Text.isDecimalDigit a && b.isAlpha) = false := by
    apply isChain_splitAllRuns (fun _ => rfl) isDecimalDigit_and_star
    apply (abridges_splitPairs_isAlpha _).isChain (fun _ => rfl) isDecimalDigit_and_star
    apply isChain_splitPairs_isDecimalDigit
  rw [List.isChain_iff_getElem] at hletters hdigits ⊢
  intro i hi
  rw [isProduct, Bool.and_or_distrib_right, hletters i hi, hdigits i hi]
  rfl

/-- A text without products is spelled as it is. -/
theorem spellProducts_eq_self {t : Text} (h : t.IsChain fun a b => isProduct a b = false) :
  spellProducts t = t
  := by
  fun_induction spellProducts t with
  | case1 a b t hab ih =>
    obtain ⟨hn, -⟩ := List.isChain_cons_cons.mp h
    rw [hab] at hn
    contradiction
  | case2 a b t hab ih => rw [ih h.tail]
  | case3 t ht => rfl

/-- All sweeps together come to the same as a single one that looks at all neighbours. -/
theorem insertProducts_eq (t : Text) :
  insertProducts t = spellProducts t
  := by
  calc insertProducts t
    _ = spellProducts (insertProducts t) := (spellProducts_eq_self (isChain_insertProducts t)).symm
    _ = spellProducts (splitPairs Char.isAlpha (splitPairs Text.isDecimalDigit t)) :=
      spellProducts_splitAllRuns _
    _ = spellProducts (splitPairs Text.isDecimalDigit t) :=
      (abridges_splitPairs_isAlpha _).spellProducts_eq.symm
    _ = spellProducts t := (abridges_splitPairs_isDecimalDigit t).spellProducts_eq.symm

/-- The sign of a product is put in between all neighbours in the text that are the factors of one,
and nothing else is changed. The sweeps that are made until nothing changes come to an end, and no
more than two of them change the text, however long its runs of letters are. -/
theorem exists_sweeps_insertProducts (t : Text) :
  insertProducts t = spellProducts t
    ∧ ∃ n ≤ 2, Sweeps n (splitPairs Char.isAlpha (splitPairs Text.isDecimalDigit t))
        (insertProducts t)
  := by
  refine ⟨insertProducts_eq t, ?_⟩
  obtain ⟨n, hn, hs⟩ := exists_sweeps (pairsFollow_splitPairs_isAlpha _ _ _ _)
  use n, hn
  rw [insertProducts, hs.splitAllRuns_eq]
  apply hs

example :
  splitRuns "a*bc*de".toList = "a*b*c*de".toList ∧ splitRuns "a*b*c*de".toList = "a*b*c*d*e".toList
  := by decide

/-- Signs that are left out are put in again. -/
theorem Abridges.insertProducts_eq {s t : Text} (h : Abridges s t) :
  insertProducts t = insertProducts s
  := by
  rw [Formula.insertProducts_eq, Formula.insertProducts_eq, h.spellProducts_eq]

/-- A single sweep puts in signs of products only. -/
theorem abridges_spellProducts (t : Text) :
  Abridges (spellProducts t) t
  := by
  fun_induction spellProducts t with
  | case1 a b t hab ih =>
    cases hs : spellProducts (b :: t) with
    | nil =>
      rw [hs] at ih
      cases ih
    | cons c s =>
      rw [hs] at ih
      obtain rfl : c = b := by simpa using ih.head?_eq
      apply Abridges.elide hab ih
  | case2 a b t hab ih => exact .keep a ih
  | case3 t ht => apply Abridges.refl

/-- What is put in is `*`. -/
theorem mem_spellProducts {c : Char} {t : Text} (h : c ∈ spellProducts t) :
  c ∈ t ∨ c = '*'
  := by
  fun_induction spellProducts t with
  | case1 a b t hab ih =>
    simp only [List.mem_cons] at h ih ⊢
    tauto
  | case2 a b t hab ih =>
    simp only [List.mem_cons] at h ih ⊢
    tauto
  | case3 t ht => exact .inl h

end SliderCalculator.Formula
