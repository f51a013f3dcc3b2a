import SliderCalculator.Proofs.Calculation.Tree

/-!
# Products with and without a sign

The sign of a product can be left out of a formula or not. Either way it stands in the expression
that is evaluated, so the number is the same, and so is the fault of a formula without one. Only
whether a text is blank can depend on characters that have no meaning:
`calculate_eq_iff_of_abridges`.
-/

namespace SliderCalculator

open Formula

variable {f g : Text} {values : Variables}

/-- A text with a sign for every product is kept. -/
theorem Formula.insertProducts_insertProducts (t : Text) :
  insertProducts (insertProducts t) = insertProducts t
  := by
  rw [insertProducts_eq (insertProducts t)]
  apply spellProducts_eq_self (isChain_insertProducts t)

/-- Signs of products that are left out are tokens all the same. -/
theorem Formula.tokens_eq_of_abridges (h : Abridges (meaningful g) (meaningful f)) :
  tokens values g = tokens values f
  := by
  rw [tokens, tokens, expression, expression, h.insertProducts_eq]

/-- What is left of a text is empty only when the text is. -/
theorem Formula.Abridges.eq_nil_iff {s t : Text} (h : Abridges s t) :
  s = [] ↔ t = []
  := by
  rw [← List.head?_eq_none_iff, ← List.head?_eq_none_iff, h.head?_eq]

/-- A formula with nothing in it that has a meaning has no value, but it is not a blank one. -/
theorem calculate_of_meaningful_eq_nil (hm : meaningful f = []) (hb : f.isAllBlank = false) :
  calculate f values = .error .notSingleValue
  := by
  rw [calculate_eq_bind hb, tokens_of_meaningful_eq_nil hm]
  rfl

/-- Where one of two texts is blank and the other one is not, though they have the same characters
with a meaning up to the signs of products, they have different faults. -/
theorem calculate_ne_of_isAllBlank (hm : meaningful f = [] ↔ meaningful g = [])
    (hf : f.isAllBlank = true) (hg : g.isAllBlank = false) :
  calculate f values ≠ calculate g values
  := by
  have hn := hm.mp (meaningful_of_isAllBlank hf)
  rw [calculate_of_meaningful_eq_nil hn hg, calculate, if_pos hf]
  simp

/-- A formula comes to the same with the signs of any of its products as without them, whatever the
values of its letters are, and however it goes on around the products. The texts may differ in
characters without a meaning, too, as long as both are blank or none is. A second insertion of the
signs changes nothing. -/
theorem calculate_eq_iff_of_abridges (values : Variables)
    (h : Abridges (meaningful g) (meaningful f)) :
  (calculate g values = calculate f values
      ↔ ((∀ c ∈ g, Text.isBlank c = true) ↔ ∀ c ∈ f, Text.isBlank c = true))
    ∧ ∀ t, insertProducts (insertProducts t) = insertProducts t
  := by
  refine ⟨?_, insertProducts_insertProducts⟩
  have blank_iff : ∀ t : Text, (∀ c ∈ t, Text.isBlank c = true) ↔ t.isAllBlank = true :=
    fun t => List.all_eq_true.symm
  rw [blank_iff, blank_iff]
  cases hg : g.isAllBlank <;> cases hf : f.isAllBlank
  case false.false =>
    rw [calculate_eq_bind hg, calculate_eq_bind hf, tokens_eq_of_abridges h]
    simp
  case true.true =>
    rw [calculate, calculate, hg, hf]
    simp
  case true.false =>
    have hn : calculate g values ≠ calculate f values :=
      calculate_ne_of_isAllBlank h.eq_nil_iff hg hf
    simp [hn]
  case false.true =>
    have hn : calculate f values ≠ calculate g values :=
      calculate_ne_of_isAllBlank h.eq_nil_iff.symm hf hg
    simp [hn.symm]

/-- A run of letters after a number, with the sign of one of the products put in, and with
blanks. -/
theorem calculate_eq_product :
  let values := Variables.ofList [('a', 2.5), ('b', 4)]
  let f := "(2abb)^a".toList
  let g := "( 2ab * b ) ^ a".toList
  Abridges (meaningful g) (meaningful f) ∧ calculate g values = calculate f values
  := by
  intro values f g
  have h : Abridges (meaningful g) (meaningful f) := by
    apply Abridges.keep
    apply Abridges.keep
    apply Abridges.keep
    apply Abridges.elide rfl
    apply Abridges.refl
  have hf : ¬ ∀ c ∈ f, Text.isBlank c = true :=
    fun hb => absurd (hb '2' (by decide +kernel)) (by decide)
  have hg : ¬ ∀ c ∈ g, Text.isBlank c = true :=
    fun hb => absurd (hb '2' (by decide +kernel)) (by decide)
  exact ⟨h, (calculate_eq_iff_of_abridges values h).1.mpr (iff_of_false hg hf)⟩

/-- A text without any characters that have a meaning does not come to the same as an empty one. -/
theorem calculate_ne_empty :
  ¬ ∀ (values : Variables) (f g : Text), Abridges (meaningful g) (meaningful f) →
    calculate g values = calculate f values
  := by
  intro h
  have hc := h Variables.empty [] ['$'] .nil
  revert hc
  decide +kernel

end SliderCalculator
