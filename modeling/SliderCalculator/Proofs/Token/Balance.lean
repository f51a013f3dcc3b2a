import SliderCalculator.Proofs.Formula.Expression

/-!
# Operands, operators and parentheses of a text

How many operands more than operators a text is read as, and whether its parentheses are
balanced, can be told from its characters one after the other. Values that are put in for
names keep the parentheses, and they never add an operand to spare: a value without a sign
is part of one operand in the place of another, and a minus sign comes with one operand.
-/

namespace SliderCalculator

open Formula Token

namespace Text

/-- The operands less the operators that a text is read as, where a run that started
before the text is not counted. -/
def excess : (inRun : Bool) → Text → Int
  | _, [] => 0
  | inRun, c :: t =>
    if isOperandChar c then
      (if inRun then 0 else 1) + excess true t
    else if isOperatorChar c then
      excess false t - 1
    else
      excess false t

/-- Whether a text closes `n` groups that are open before it and all groups that it opens,
and no more. -/
def closes : Nat → Text → Bool
  | n, [] => n == 0
  | n, c :: t =>
    if c = '(' then
      closes (n + 1) t
    else if c = ')' then
      n != 0 && closes (n - 1) t
    else
      closes n t

end Text

/-- Whether the parentheses of a text are balanced: no prefix closes more groups than it opens, and
the text closes as many as it opens. -/
structure Text.IsBalanced (t : Text) : Prop where
  le : ∀ s, s <+: t → s.count ')' ≤ s.count '('
  eq : t.count '(' = t.count ')'

/-! ### Runs -/

/-- The rest of a run is not counted. -/
theorem Text.excess_dropWhile (t : Text) :
  excess false (t.dropWhile isOperandChar) = excess true t
  := by
  induction t with
  | nil => rfl
  | cons c t ih =>
    cases hc : isOperandChar c <;> simp [excess, hc, ih]

/-- A run counts as one operand, or none if it has started already. -/
theorem Text.excess_append {content : Text} (h : IsRun content) (inRun : Bool) (t : Text) :
  excess inRun (content ++ t) = (if inRun then 0 else 1) + excess true t
  := by
  obtain ⟨hn, hc⟩ := h
  induction content generalizing inRun with
  | nil => contradiction
  | cons c cs ih =>
    rw [List.cons_append, excess, if_pos (hc c List.mem_cons_self)]
    cases cs with
    | nil => rfl
    | cons d cs =>
      rw [ih true (List.cons_ne_nil _ _) fun e he => hc e (List.mem_cons_of_mem _ he)]
      simp

theorem Text.not_parenthesis_of_isOperandChar {c : Char} (h : isOperandChar c = true) :
  c ≠ '(' ∧ c ≠ ')'
  := by
  constructor <;>
  · rintro rfl
    contradiction

theorem Text.not_parenthesis_of_isPunctuationChar {c : Char}
    (h : isPunctuationChar c = false) :
  c ≠ '(' ∧ c ≠ ')'
  := by
  constructor <;>
  · rintro rfl
    contradiction

/-- The sign of an operator ends a run and counts against the operands. -/
theorem Text.excess_sign (o : Operator) (inRun : Bool) (t : Text) :
  excess inRun (o.sign :: t) = excess false t - 1
  := by
  simp [excess, isOperatorChar]

/-- What holds no parentheses neither opens nor closes a group. -/
theorem Text.closes_append {content : Text} (h : ∀ c ∈ content, c ≠ '(' ∧ c ≠ ')') (n : Nat)
    (t : Text) :
  closes n (content ++ t) = closes n t
  := by
  induction content with
  | nil => rfl
  | cons c cs ih =>
    obtain ⟨hl, hr⟩ := h c List.mem_cons_self
    rw [List.cons_append, closes, if_neg hl, if_neg hr]
    apply ih fun d hd => h d (List.mem_cons_of_mem _ hd)

/-- A character as a punctuation mark. -/
def Token.punctuation (c : Char) : Token :=
  ⟨.punctuation, [c]⟩

@[simp]
theorem Token.isLeft_punctuation (c : Char) :
  (punctuation c).isLeft = (c == '(')
  := by
  rw [Bool.eq_iff_iff, isLeft_iff, beq_iff_eq]
  simp [punctuation, leftParenthesis]

@[simp]
theorem Token.isRight_punctuation (c : Char) :
  (punctuation c).isRight = (c == ')')
  := by
  rw [Bool.eq_iff_iff, isRight_iff, beq_iff_eq]
  simp [punctuation, rightParenthesis]

/-- The parentheses of a text are those of its characters as punctuation marks. -/
theorem Text.closes_eq_closes_map (n : Nat) (t : Text) :
  closes n t = Token.closes n (t.map punctuation)
  := by
  induction t generalizing n with
  | nil => rfl
  | cons c t ih => simp [closes, Token.closes, ih]

/-- A text closes the groups that are open and its own when no prefix of it closes more than are
open then, and none is open at the end. -/
theorem Text.closes_iff (n : Nat) (t : Text) :
  closes n t = true
    ↔ (∀ s, s <+: t → s.count ')' ≤ n + s.count '(') ∧ n + t.count '(' = t.count ')'
  := by
  have hl (s : Text) : (s.map punctuation).countP isLeft = s.count '(' := by
    simp [List.countP_map, List.count, Function.comp_def]
  have hr (s : Text) : (s.map punctuation).countP isRight = s.count ')' := by
    simp [List.countP_map, List.count, Function.comp_def]
  rw [closes_eq_closes_map, Token.closes_iff, hl, hr]
  apply and_congr_left'
  constructor
  · intro h s hs
    rw [← hl, ← hr]
    apply h _ (hs.map _)
  · intro h us hus
    obtain ⟨s, hs, rfl⟩ := List.prefix_map_iff.mp hus
    rw [hl, hr]
    apply h s hs

theorem Text.closes_zero_iff (t : Text) :
  closes 0 t = true ↔ t.IsBalanced
  := by
  simp only [closes_iff, Nat.zero_add]
  exact ⟨fun h => ⟨h.1, h.2⟩, fun h => ⟨h.le, h.eq⟩⟩

/-- The first character counts alike before rests that are closed alike. -/
theorem Text.closes_cons_congr {s t : Text} (h : ∀ n, closes n s = closes n t) (c : Char)
    (n : Nat) :
  closes n (c :: s) = closes n (c :: t)
  := by
  simp only [closes, h]

/-- Leaving out other characters keeps the parentheses. -/
theorem Text.closes_filter {p : Char → Bool} (hp : ∀ c, isPunctuationChar c = true → p c = true)
    (n : Nat) (t : Text) :
  closes n (t.filter p) = closes n t
  := by
  induction t generalizing n with
  | nil => rfl
  | cons c t ih =>
    cases hc : p c with
    | true =>
      rw [List.filter_cons_of_pos hc]
      apply closes_cons_congr ih
    | false =>
      have hn : isPunctuationChar c = false := by
        apply eq_false_of_ne_true
        intro h
        rw [hp c h] at hc
        contradiction
      obtain ⟨hl, hr⟩ := not_parenthesis_of_isPunctuationChar hn
      rw [List.filter_cons_of_neg (by rw [hc]; exact Bool.false_ne_true), ih, closes, if_neg hl,
        if_neg hr]

/-- Signs of products are no parentheses. -/
theorem Formula.Abridges.closes_eq {s t : Text} (h : Abridges s t) (n : Nat) :
  Text.closes n s = Text.closes n t
  := by
  induction h generalizing n with
  | nil => rfl
  | keep c h ih => apply Text.closes_cons_congr ih
  | @elide a b hab s t h ih =>
    have hs : ∀ m, Text.closes m ('*' :: b :: s) = Text.closes m (b :: t) := ih
    apply Text.closes_cons_congr hs

/-! ### Tokens -/

/-- The excess of a text is that of its tokens. -/
theorem Text.excess_eq (t : Text) :
  excess false t = ((scan t).countP isOperand : Int) - (scan t).countP isApplied
  := by
  fun_induction scan t with
  | case1 => rfl
  | case2 c t hc ih =>
    rw [excess, if_pos hc, ← excess_dropWhile, ih]
    simp [List.countP_cons]
    omega
  | case3 c t hc ho ih =>
    obtain ⟨o, rfl⟩ := isOperatorChar_iff.mp ho
    rw [excess_sign, ih]
    change _ = (((o.token :: scan t).countP isOperand : Nat) : Int)
      - (o.token :: scan t).countP isApplied
    simp [List.countP_cons]
    omega
  | case4 c t hc ho hp ih =>
    rw [excess, if_neg hc, if_neg ho, ih]
    obtain rfl | rfl := isPunctuationChar_iff.mp hp <;> rfl
  | case5 c t hc ho hp ih =>
    rw [excess, if_neg hc, if_neg ho, ih]

/-- A text closes groups as its tokens do. -/
theorem Text.closes_eq (t : Text) (n : Nat) :
  closes n t = Token.closes n (scan t)
  := by
  fun_induction scan t generalizing n with
  | case1 => rfl
  | case2 c t hc ih =>
    rw [closes_operand, ← ih, cons_eq_takeWhile_append isOperandChar c t, closes_append]
    intro d hd
    apply not_parenthesis_of_isOperandChar
    apply all_cons_takeWhile hc t d hd
  | case3 c t hc ho ih =>
    obtain ⟨o, rfl⟩ := isOperatorChar_iff.mp ho
    have hs : closes n (o.sign :: t) = closes n t := by
      cases o <;> rfl
    rw [hs, ih]
    apply (closes_token n (scan t) o).symm
  | case4 c t hc ho hp ih =>
    obtain rfl | rfl := isPunctuationChar_iff.mp hp
    · apply (ih (n + 1)).trans (closes_left n (scan t)).symm
    · have hs : closes n (')' :: t) = (n != 0 && closes (n - 1) t) := rfl
      rw [hs, ih]
      apply (closes_right n (scan t)).symm
  | case5 c t hc ho hp ih =>
    obtain ⟨hl, hr⟩ := not_parenthesis_of_isPunctuationChar (eq_false_of_ne_true hp)
    rw [closes, if_neg hl, if_neg hr, ih]

/-! ### Substitution -/

namespace Formula

variable {name : Char}

/-- The text of a value holds no parentheses. -/
theorem not_parenthesis_of_mem_text {x : Float} {c : Char} (h : c ∈ Number.text x) :
  c ≠ '(' ∧ c ≠ ')'
  := by
  obtain ⟨-, hc⟩ | ⟨content, ⟨-, hc⟩, ht⟩ := Number.text_cases x
  · apply Text.not_parenthesis_of_isOperandChar (hc c h)
  · rw [ht] at h
    obtain rfl | h := List.mem_cons.mp h
    · decide
    · apply Text.not_parenthesis_of_isOperandChar (hc c h)

/-- Replacing a name that is no parenthesis keeps the parentheses. -/
theorem closes_replaceName (hp : isPunctuationChar name = false) (x : Float) (t : Text) (n : Nat) :
  Text.closes n (replaceName name x t) = Text.closes n t
  := by
  induction t generalizing n with
  | nil => rfl
  | cons c t ih =>
    rw [replaceName, List.flatMap_cons]
    split
    case isTrue h =>
      subst h
      obtain ⟨hl, hr⟩ := Text.not_parenthesis_of_isPunctuationChar hp
      rw [Text.closes_append fun d hd => not_parenthesis_of_mem_text hd, Text.closes, if_neg hl,
        if_neg hr]
      apply ih n
    case isFalse h =>
      apply Text.closes_cons_congr ih

/-- Replacing a name adds no operand to spare. -/
theorem excess_replaceName_le
    (hn : isOperatorChar name = false ∧ isPunctuationChar name = false) (x : Float)
    {t : Text} (ht : ∀ c ∈ t, isSolid c = true) (inRun : Bool) :
  Text.excess inRun (replaceName name x t) ≤ Text.excess inRun t
  := by
  induction t generalizing inRun with
  | nil => apply Int.le_refl
  | cons c t ih =>
    have ih' := ih fun d hd => ht d (List.mem_cons_of_mem _ hd)
    rw [replaceName, List.flatMap_cons]
    change Text.excess inRun (_ ++ replaceName name x t) ≤ _
    split
    case isTrue h =>
      subst h
      have hc : isOperandChar c = true := by
        have hs := ht c List.mem_cons_self
        rw [isSolid, hn.1, hn.2, Bool.or_false, Bool.or_false] at hs
        apply hs
      have h := ih' true
      rw [Text.excess, if_pos hc]
      obtain hr | ⟨content, hr, hx⟩ := Number.text_cases x
      · rw [Text.excess_append hr]
        omega
      · rw [hx, List.cons_append, Text.excess_sign, Text.excess_append hr]
        simp only [Bool.false_eq_true, if_false]
        split <;> omega
    case isFalse h =>
      have h₁ := ih' true
      have h₂ := ih' false
      rw [List.singleton_append, Text.excess, Text.excess]
      split
      · omega
      · split <;> omega

/-- Substitution keeps the parentheses when none of them is a name. -/
theorem closes_substitute_of_isPunctuationChar {values : Variables}
    (hv : ∀ c ∈ values.names, isPunctuationChar c = false) (t : Text) (n : Nat) :
  Text.closes n (substitute values t) = Text.closes n t
  := by
  apply substitute_induction (motive := fun u => Text.closes n u = Text.closes n t) rfl
  intro e he u hu
  rw [closes_replaceName (hv e.1 (List.mem_map_of_mem he)), hu]

/-- The expression of a formula opens and closes the groups of the formula. -/
theorem closes_expression {values : Variables}
    (hv : ∀ c ∈ values.names, isPunctuationChar c = false) (formula : Text) (n : Nat) :
  Text.closes n (expression values formula) = Text.closes n formula
  := by
  rw [expression, closes_substitute_of_isPunctuationChar hv, insertProducts_eq,
    (abridges_spellProducts _).closes_eq, meaningful, Text.closes_filter]
  intro c hc
  rw [isMeaningful, hc, Bool.or_true]

/-- Whether the names of variables can stand in operands only. -/
def NamesOperands (values : Variables) : Prop :=
  ∀ c ∈ values.names, isOperatorChar c = false ∧ isPunctuationChar c = false

variable {values : Variables} (hv : NamesOperands values)

include hv in
/-- It keeps the parentheses in particular when names stand in operands only. -/
theorem closes_substitute (t : Text) (n : Nat) :
  Text.closes n (substitute values t) = Text.closes n t
  := closes_substitute_of_isPunctuationChar (fun c hc => (hv c hc).2) t n

include hv in
/-- Substitution adds no operand to spare. -/
theorem excess_substitute_le {t : Text} (ht : ∀ c ∈ t, isSolid c = true) :
  Text.excess false (substitute values t) ≤ Text.excess false t
  := by
  have h : (∀ c ∈ substitute values t, isSolid c = true)
      ∧ Text.excess false (substitute values t) ≤ Text.excess false t := by
    apply substitute_induction (motive := fun u => (∀ c ∈ u, isSolid c = true)
      ∧ Text.excess false u ≤ Text.excess false t) ⟨ht, Int.le_refl _⟩
    rintro e he u ⟨hu, hle⟩
    constructor
    · apply isSolid_of_mem_replaceName hu
    · apply Int.le_trans (excess_replaceName_le (hv e.1 (List.mem_map_of_mem he)) e.2 hu false) hle
  apply h.2

end Formula

end SliderCalculator
