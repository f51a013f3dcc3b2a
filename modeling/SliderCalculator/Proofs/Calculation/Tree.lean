import SliderCalculator.Calculation
import SliderCalculator.Proofs.Formula.Expression
import SliderCalculator.Proofs.Postfix.Arrangement
import SliderCalculator.Proofs.Postfix.Conversion
import SliderCalculator.Proofs.Postfix.Reduction
import SliderCalculator.Proofs.Token.Places

/-!
# The tree of a formula

A calculation that comes down to one value, finite or not, converts the tokens of the
formula to the postfix order of a tree, and the value is that of the tree.
-/

namespace SliderCalculator

open Formula Token

/-- Whether a calculation comes down to one value, finite or not. -/
def HasValue (formula : Text) (values : Variables) : Prop :=
  (∃ x, calculate formula values = .ok x) ∨ calculate formula values = .error .notFinite

variable {formula : Text} {values : Variables}

/-- A formula without characters that have a meaning has no tokens. -/
theorem tokens_of_meaningful_eq_nil (h : meaningful formula = []) (values : Variables) :
  tokens values formula = []
  := by
  have hs : substitute values [] = [] := by
    apply substitute_induction (motive := fun u => u = []) rfl
    rintro e _ t rfl
    rfl
  rw [tokens_eq_scan, expression, h, insertProducts_eq]
  change scan (substitute values []) = []
  rw [hs, scan_nil]

/-- Blanks have no meaning. -/
theorem meaningful_of_isAllBlank (h : formula.isAllBlank = true) :
  meaningful formula = []
  := by
  apply List.filter_eq_nil_iff.mpr
  intro c hc hm
  have hc := List.all_eq_true.mp h c hc
  rw [isBlank_of_isSolid (isSolid_of_isMeaningful hm)] at hc
  contradiction

/-- A blank formula has no tokens. -/
theorem tokens_of_isAllBlank (h : formula.isAllBlank = true) (values : Variables) :
  tokens values formula = []
  := tokens_of_meaningful_eq_nil (meaningful_of_isAllBlank h) values

/-- A formula that is not blank is calculated by conversion and evaluation. -/
theorem calculate_eq_bind (h : formula.isAllBlank = false) :
  calculate formula values = toPostfix (tokens values formula) >>= evaluate
  := by
  rw [calculate, h, if_neg Bool.false_ne_true]

/-- A formula that has a value is not blank. -/
theorem HasValue.isAllBlank (h : HasValue formula values) :
  formula.isAllBlank = false
  := by
  apply eq_false_of_ne_true
  intro hb
  rw [HasValue, calculate, if_pos hb] at h
  obtain ⟨x, h⟩ | h := h <;> contradiction

/-- A formula is converted to operands and known operators. -/
theorem isProper_of_toPostfix {p : List Token} (h : toPostfix (tokens values formula) = .ok p) :
  ∀ s ∈ p, s.IsProper ∧ s.isParenthesis = false
  := by
  intro s hs
  have hs := (perm_toPostfix h).mem_iff.mp hs
  rw [tokens_eq_scan, List.mem_filter] at hs
  constructor
  · apply isProper_of_mem_scan s hs.1
  · simpa using hs.2

/-- A calculation that comes down to one value converts the tokens and reduces them. -/
theorem HasValue.exists_reduce (h : HasValue formula values) :
  ∃ p x, toPostfix (tokens values formula) = .ok p ∧ p.foldlM reduce [] = .ok [x]
  := by
  have hb := h.isAllBlank
  rw [HasValue, calculate_eq_bind hb] at h
  cases hp : toPostfix (tokens values formula) with
  | error e =>
    rw [hp, eq_of_toPostfix_eq_error hp] at h
    obtain ⟨x, h⟩ | h := h <;> contradiction
  | ok p =>
    rw [hp] at h
    obtain ⟨x, hx⟩ := (foldlM_reduce_eq_single_iff p).mpr h
    exact ⟨p, x, rfl, hx⟩

/-- A calculation that comes down to one value converts the tokens to the postfix order of a
tree with a value. -/
theorem HasValue.exists_tree (h : HasValue formula values) :
  ∃ (t : Tree Text) (x : Float),
    toPostfix (tokens values formula) = .ok t.postorder ∧ t.value = .ok x
  := by
  obtain ⟨p, x, hp, hx⟩ := h.exists_reduce
  obtain ⟨t, rfl, hv⟩ := exists_tree_of_foldlM_reduce (isProper_of_toPostfix hp) hx
  exact ⟨t, x, hp, hv⟩

/-- A formula with the tokens of a tree is calculated by evaluating the tree. -/
theorem calculate_eq_of_toPostfix {t : Tree Text}
    (h : toPostfix (tokens values formula) = .ok t.postorder) :
  calculate formula values = t.value >>= fun x => singleValue [x]
  := by
  have hb : formula.isAllBlank = false := by
    apply eq_false_of_ne_true
    intro hb
    rw [tokens_of_isAllBlank hb] at h
    have hp : [] = t.postorder := Except.ok.inj h
    apply t.postorder_ne_nil hp.symm
  rw [calculate_eq_bind hb, h]
  apply evaluate_postorder

/-- A calculation gives a number when the tokens are converted to the postfix order of a
tree with that number as its finite value, and only then. -/
theorem calculate_eq_ok_iff {x : Float} :
  calculate formula values = .ok x
    ↔ ∃ t : Tree Text, toPostfix (tokens values formula) = .ok t.postorder ∧ t.value = .ok x
      ∧ x.isFinite = true
  := by
  constructor
  · intro h
    obtain ⟨t, y, hp, hv⟩ := HasValue.exists_tree (.inl ⟨x, h⟩)
    rw [calculate_eq_of_toPostfix hp, hv] at h
    change singleValue [y] = .ok x at h
    rw [singleValue] at h
    split at h
    case isTrue hf =>
      cases h
      exact ⟨t, hp, hv, hf⟩
    case isFalse => contradiction
  · rintro ⟨t, hp, hv, hf⟩
    rw [calculate_eq_of_toPostfix hp, hv]
    change singleValue [x] = .ok x
    rw [singleValue, if_pos hf]

end SliderCalculator
