import SliderCalculator.Proofs.Calculation.Operands
import SliderCalculator.Proofs.Calculation.Tree

/-!
# Letters without values

A letter without a value stays in the expression as the start of an operand that denotes no
number. What it is part of is not a number either, up to the whole formula, unless on the
way a power does not depend on it: one to any power is one, and so is any power with the
exponent zero.
-/

namespace SliderCalculator

open Formula Token

/-! ### Trees -/

namespace Tree

/-- The leaves of a tree from left to right. -/
def leaves {α : Type} : Tree α → List α
  | leaf a => [a]
  | node _ l r => l.leaves ++ r.leaves

/-- Whether an operand that denotes no number decides the value of a tree. A power does not
depend on its base when the exponent is zero, nor on its exponent when the base is one. -/
def IsPoisoned : Tree Text → Prop
  | leaf content => Number.read? content = none
  | node o l r =>
    (l.IsPoisoned ∨ r.IsPoisoned)
      ∧ (o = .exponentiation →
        (∀ x, l.value = .ok x → (x == 1.0) = false) ∧ ∀ y, r.value = .ok y → (y == 0.0) = false)

/-- The operands in the postfix order of a tree are its leaves. -/
theorem operand_mem_postorder {t : Tree Text} {content : Text} :
  operand content ∈ t.postorder ↔ content ∈ t.leaves
  := by
  induction t with
  | leaf a => simp [postorder, leaves, operand]
  | node o l r ihl ihr =>
    have ho : operand content ≠ o.token := by
      intro h
      have hk := congrArg Token.isOperand h
      contradiction
    simp [postorder, leaves, ihl, ihr, ho]

/-- The value of a tree that an operand without a number decides is not a number. -/
theorem isNaN_of_isPoisoned {t : Tree Text} (h : t.IsPoisoned) {x : Float}
    (hx : t.value = .ok x) :
  x.isNaN = true
  := by
  induction t generalizing x with
  | leaf content =>
    have hr : Number.read? content = none := h
    rw [value_leaf] at hx
    cases hx
    simp only [operandValue, operand, hr]
    apply Number.isNaN_nan
  | node o l r ihl ihr =>
    obtain ⟨hlr, ho⟩ := h
    rw [value_node] at hx
    cases hl : l.value with
    | error e =>
      rw [hl] at hx
      contradiction
    | ok y =>
      cases hr : r.value with
      | error e =>
        rw [hl, hr] at hx
        contradiction
      | ok z =>
        rw [hl, hr] at hx
        apply Operator.isNaN_apply hx
        · obtain h | h := hlr
          · exact .inl (ihl h hl)
          · exact .inr (ihr h hr)
        · intro he
          exact ⟨(ho he).1 y hl, (ho he).2 z hr⟩

end Tree

/-! ### Letters in expressions -/

/-- A letter without a value starts an operand that denotes no number. -/
theorem Formula.exists_operand_mem_tokens {values : Variables}
    (hn : ∀ c ∈ values.names, c.isAlpha = true) (hv : ∀ e ∈ values.entries, e.2.isFinite = true)
    {c : Char} {formula : Text} (hc : c ∈ formula) (ha : c.isAlpha = true) (hu : c ∉ values.names) :
  ∃ content, operand content ∈ tokens values formula ∧ c ∈ content
    ∧ Number.read? content = none
  := by
  have hp : values.IsPlainFor formula := Variables.IsPlain.isPlainFor ⟨hn, hv⟩ formula
  obtain ⟨digits, hd⟩ := exists_isFactor (mem_letters.mpr ⟨hc, ha⟩)
  have hm : values.magnitude c = [c] := by
    rw [Variables.magnitude, Variables.get?_eq_none_iff.mpr hu]
  use c :: digits
  refine ⟨?_, List.mem_cons_self, (hd.isUnbound hu).read?_eq⟩
  apply (operand_mem_tokens_iff hp).mpr
  right
  exact ⟨c, digits, hd, by rw [hm]; rfl⟩

variable {formula : Text} {values : Variables}

/-- A formula with a letter that has no value is given a number exactly when it is the
formula of a tree with a finite value in which powers that do not depend on them hide all
operands that denote no number. -/
theorem calculate_eq_ok_iff_of_unbound (hn : ∀ c ∈ values.names, c.isAlpha = true)
    (hv : ∀ e ∈ values.entries, e.2.isFinite = true) {c : Char} (hc : c ∈ formula)
    (ha : c.isAlpha = true) (hu : c ∉ values.names) (x : Float) :
  calculate formula values = .ok x
    ↔ ∃ t : Tree Text, toPostfix (tokens values formula) = .ok t.postorder
      ∧ (∃ content ∈ t.leaves, c ∈ content ∧ Number.read? content = none)
      ∧ ¬ t.IsPoisoned ∧ t.value = .ok x ∧ x.isFinite = true
  := by
  rw [calculate_eq_ok_iff]
  constructor
  · rintro ⟨t, hp, hx, hf⟩
    obtain ⟨content, hs, hcc, hr⟩ := exists_operand_mem_tokens hn hv hc ha hu
    refine ⟨t, hp, ⟨content, ?_, hcc, hr⟩, ?_, hx, hf⟩
    · rw [← Tree.operand_mem_postorder, (perm_toPostfix hp).mem_iff, List.mem_filter]
      exact ⟨hs, rfl⟩
    · intro h
      rw [Number.isFinite_of_isNaN (Tree.isNaN_of_isPoisoned h hx)] at hf
      contradiction
  · rintro ⟨t, hp, -, -, hx, hf⟩
    exact ⟨t, hp, hx, hf⟩

/-- The power of a letter without a value, with the exponent zero, behind a name that has a value
and by itself. -/
theorem calculate_power_zero_of_unbound :
  let values := Variables.ofList [('a', 2.5)]
  (∀ c ∈ values.names, c.isAlpha = true) ∧ (∀ e ∈ values.entries, e.2.isFinite = true)
    ∧ 'x' ∉ values.names
    ∧ calculate ['a', 'x', '^', '0'] values = .ok 2.5
    ∧ calculate ['x', '^', '0'] Variables.empty = .ok 1.0
  := by
  intro values
  have hnames : values.names = ['a'] := by decide +kernel
  have hn : ∀ c ∈ values.names, c.isAlpha = true := by
    rw [hnames]
    exact List.forall_mem_singleton.mpr rfl
  have hv : ∀ e ∈ values.entries, e.2.isFinite = true := by decide +kernel
  have hu : 'x' ∉ values.names := by
    rw [hnames]
    decide
  refine ⟨hn, hv, hu, ?_, by decide +kernel⟩
  apply (calculate_eq_ok_iff_of_unbound hn hv (by decide) rfl hu 2.5).mpr
  use .node .multiplication (.leaf ['2', '.', '5'])
    (.node .exponentiation (.leaf ['x']) (.leaf ['0']))
  refine ⟨by decide +kernel, ⟨['x'], by decide, by decide, by decide +kernel⟩, ?_,
    by decide +kernel, by decide +kernel⟩
  rintro ⟨h | ⟨-, h⟩, -⟩
  · have hr : Number.read? ['2', '.', '5'] = some 2.5 := by decide +kernel
    rw [Tree.IsPoisoned, hr] at h
    contradiction
  · have h0 := (h rfl).2 0.0 (by decide +kernel)
    revert h0
    decide +kernel

end SliderCalculator
