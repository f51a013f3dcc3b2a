import Mathlib.Data.List.Chain
import SliderCalculator.Proofs.Grammar

/-!
# Alternation of operands and operators

Whether tokens are an expression can be told without a derivation: the parentheses are
balanced, and operands and groups alternate with operators. The main statements are

* `isExpression_iff`, which says so, and
* `alternates_of_countP`: where nothing that ends an operand stands right before something
  that starts one, operands alternate with operators already when there is one operand
  more than there are operators.
-/

namespace SliderCalculator

namespace Token

/-- The tokens that formulas are read as: operands, known operators and parentheses. -/
inductive IsProper : Token → Prop where
  | operand (content : Text) : IsProper (operand content)
  | operator (o : Operator) : IsProper o.token
  | left : IsProper leftParenthesis
  | right : IsProper rightParenthesis

/-- Whether a token is a parenthesis. -/
def isParenthesis (t : Token) : Bool :=
  t.isLeft || t.isRight

/-- Whether a token is neither an operand nor a parenthesis. -/
def isApplied (t : Token) : Bool :=
  !t.isOperand && !t.isParenthesis

theorem not_parenthesis_of_isOperand {t : Token} (h : t.isOperand = true) :
  t.isLeft = false ∧ t.isRight = false
  := by
  constructor <;>
  · apply eq_false_of_ne_true
    rintro ht
    simp only [isLeft_iff, isRight_iff] at ht
    subst ht
    contradiction

theorem isParenthesis_of_isOperand {t : Token} (h : t.isOperand = true) :
  t.isParenthesis = false
  := by
  obtain ⟨hl, hr⟩ := not_parenthesis_of_isOperand h
  rw [isParenthesis, hl, hr]
  rfl

/-- Whether tokens close `n` groups that are open before them and all groups that they
open, and no more. -/
def closes : Nat → List Token → Bool
  | n, [] => n == 0
  | n, t :: ts =>
    if t.isLeft then
      closes (n + 1) ts
    else if t.isRight then
      n != 0 && closes (n - 1) ts
    else
      closes n ts

@[simp] theorem isOperand_operand (c : Text) : (operand c).isOperand = true := rfl
@[simp] theorem isLeft_operand (c : Text) : (operand c).isLeft = false := rfl
@[simp] theorem isRight_operand (c : Text) : (operand c).isRight = false := rfl
@[simp] theorem isOperand_token (o : Operator) : o.token.isOperand = false := rfl
@[simp] theorem isLeft_token (o : Operator) : o.token.isLeft = false := rfl
@[simp] theorem isRight_token (o : Operator) : o.token.isRight = false := rfl
@[simp] theorem isOperand_left : leftParenthesis.isOperand = false := rfl
@[simp] theorem isRight_left : leftParenthesis.isRight = false := rfl
@[simp] theorem isOperand_right : rightParenthesis.isOperand = false := rfl
@[simp] theorem isLeft_right : rightParenthesis.isLeft = false := rfl
@[simp] theorem isApplied_operand (c : Text) : (operand c).isApplied = false := rfl
@[simp] theorem isApplied_token (o : Operator) : o.token.isApplied = true := rfl
@[simp] theorem isApplied_left : leftParenthesis.isApplied = false := rfl
@[simp] theorem isApplied_right : rightParenthesis.isApplied = false := rfl

section Closes

variable (n : Nat) (ts : List Token)

@[simp]
theorem closes_nil :
  closes n [] = (n == 0)
  := rfl

@[simp]
theorem closes_operand (c : Text) :
  closes n (operand c :: ts) = closes n ts
  := by
  simp [closes]

@[simp]
theorem closes_token (o : Operator) :
  closes n (o.token :: ts) = closes n ts
  := by
  simp [closes]

@[simp]
theorem closes_left :
  closes n (leftParenthesis :: ts) = closes (n + 1) ts
  := by
  simp [closes]

@[simp]
theorem closes_right :
  closes n (rightParenthesis :: ts) = (n != 0 && closes (n - 1) ts)
  := by
  simp [closes]

end Closes

/-- Whether the parentheses among tokens are balanced: no prefix closes more groups than it opens,
and all of them together close as many as they open. -/
structure IsBalanced (ts : List Token) : Prop where
  le : ∀ us, us <+: ts → us.countP isRight ≤ us.countP isLeft
  eq : ts.countP isLeft = ts.countP isRight

/-- A prefix is empty, or it starts with the first token. -/
theorem forall_prefix_cons_iff {p : List Token → Prop} (t : Token) (ts : List Token) :
  (∀ us, us <+: t :: ts → p us) ↔ p [] ∧ ∀ us, us <+: ts → p (t :: us)
  := by
  constructor
  · intro h
    exact ⟨h [] List.nil_prefix, fun us hus => h (t :: us) ((List.prefix_cons_inj t).mpr hus)⟩
  · rintro ⟨hn, hc⟩ us hus
    obtain rfl | ⟨vs, rfl, hvs⟩ := List.prefix_cons_iff.mp hus
    · apply hn
    · apply hc vs hvs

/-- Tokens close the groups that are open and their own when no prefix of them closes more than are
open then, and none is open at the end. -/
theorem closes_iff (n : Nat) (ts : List Token) :
  closes n ts = true
    ↔ (∀ us, us <+: ts → us.countP isRight ≤ n + us.countP isLeft)
      ∧ n + ts.countP isLeft = ts.countP isRight
  := by
  induction ts generalizing n with
  | nil => simp
  | cons t ts ih =>
    have hn : ([] : List Token).countP isRight ≤ n + ([] : List Token).countP isLeft :=
      Nat.zero_le _
    rw [closes, forall_prefix_cons_iff, and_iff_right hn]
    cases hl : t.isLeft with
    | true =>
      obtain rfl := isLeft_iff.mp hl
      simp [ih, Nat.add_assoc, Nat.add_comm 1]
    | false =>
      cases hr : t.isRight with
      | false => simp [ih, hl, hr]
      | true =>
        simp only [Bool.false_eq_true, if_false, if_true, Bool.and_eq_true, bne_iff_ne, ih,
          List.countP_cons_of_pos hr, List.countP_cons_of_neg (ne_true_of_eq_false hl)]
        cases n with
        | zero =>
          -- the first token closes what is not open
          constructor
          · rintro ⟨h, -⟩
            contradiction
          · rintro ⟨h, -⟩
            have h0 := h [] List.nil_prefix
            contradiction
        | succ n =>
          simp only [Nat.add_sub_cancel, Nat.add_right_comm n 1, Nat.add_le_add_iff_right,
            Nat.add_right_cancel_iff]
          apply and_iff_right (Nat.succ_ne_zero n)

/-- Tokens close their own groups and no more when their parentheses are balanced. -/
theorem closes_zero_iff (ts : List Token) :
  closes 0 ts = true ↔ IsBalanced ts
  := by
  simp only [closes_iff, Nat.zero_add]
  exact ⟨fun h => ⟨h.1, h.2⟩, fun h => ⟨h.le, h.eq⟩⟩

/-- Whether a token starts an operand or a group. -/
def startsOperand (t : Token) : Bool :=
  t.isOperand || t.isLeft

/-- Whether a token ends an operand or a group. -/
def endsOperand (t : Token) : Bool :=
  t.isOperand || t.isRight

/-- Whether no operand or group stands right before another one. -/
def Separated (ts : List Token) : Prop :=
  ts.IsChain fun s t => (s.endsOperand && t.startsOperand) = false

/-- What is to come next: something that starts an operand, or an operator or the end of a
group. -/
inductive Expected where
  | operand
  | operator

/-- Whether operands and groups alternate with operators, from what is expected next on. -/
inductive Alternates : Expected → List Token → Prop where
  | nil : Alternates .operator []
  | operand (content : Text) {ts : List Token} (h : Alternates .operator ts) :
      Alternates .operand (operand content :: ts)
  | left {ts : List Token} (h : Alternates .operand ts) :
      Alternates .operand (leftParenthesis :: ts)
  | operator (o : Operator) {ts : List Token} (h : Alternates .operand ts) :
      Alternates .operator (o.token :: ts)
  | right {ts : List Token} (h : Alternates .operator ts) :
      Alternates .operator (rightParenthesis :: ts)

end Token

open Token

/-! ### Expressions -/

namespace Derivation

variable {n : Nat}

/-- An expression closes the groups that it opens. -/
theorem closes_tokens_append (d : Derivation Text n) (k : Nat) (ts : List Token) :
  closes k (d.tokens ++ ts) = closes k ts
  := by
  induction d generalizing k ts with
  | operand content => simp [tokens]
  | group d ih => simp [tokens, ih]
  | loosen h d ih => simp [tokens, ih]
  | binary o l r ihl ihr => simp [tokens, ihl, ihr]

/-- After an expression an operator may follow, or the end of a group. -/
theorem alternates_tokens_append (d : Derivation Text n) {ts : List Token}
    (h : Alternates .operator ts) :
  Alternates .operand (d.tokens ++ ts)
  := by
  induction d generalizing ts with
  | operand content => exact .operand content h
  | group d ih =>
    simp only [tokens, List.cons_append, List.append_assoc, List.nil_append]
    exact .left (ih (.right h))
  | loosen _ d ih => apply ih h
  | binary o l r ihl ihr =>
    simp only [tokens, List.append_assoc, List.cons_append]
    apply ihl (.operator o (ihr h))

/-- An expression holds one operand more than operators. -/
theorem countP_tokens (d : Derivation Text n) :
  d.tokens.countP isOperand = d.tokens.countP isApplied + 1
  := by
  induction d with
  | operand content => rfl
  | group d ih =>
    simp only [tokens, List.countP_cons, List.countP_append, List.countP_nil, isOperand_left,
      isOperand_right, isApplied_left, isApplied_right, Bool.false_eq_true, if_false]
    omega
  | loosen h d ih => apply ih
  | binary o l r ihl ihr =>
    simp only [tokens, List.countP_cons, List.countP_append, isOperand_token, isApplied_token,
      Bool.false_eq_true, if_false, if_true]
    omega

end Derivation

/-- Whether tokens become an expression whenever an operand or a group is added. -/
def AwaitsOperand (ts : List Token) : Prop :=
  ∀ p : Derivation Text 4, IsExpression (ts ++ p.tokens)

theorem awaitsOperand_nil :
  AwaitsOperand []
  := fun p => p.exists_tokens_eq_of_le (by decide) (by decide)

/-- After an operator an expression awaits an operand. -/
theorem awaitsOperand_append (d : Derivation Text 1) (o : Operator) :
  AwaitsOperand (d.tokens ++ [o.token])
  := by
  intro p
  obtain ⟨e, he⟩ := d.exists_tokens_eq_append p Nat.one_pos (Nat.le_refl 1) o.precedence_pos
  use e
  rw [he, List.append_assoc]
  rfl

/-- The tokens that have been read when groups are open: what stands before each left
parenthesis, the innermost first, and then the tokens of the innermost group. -/
def withOpenGroups : List (List Token) → List Token → List Token
  | [], ts => ts
  | l :: ls, ts => withOpenGroups ls (l ++ leftParenthesis :: ts)

/-- Tokens that are alternating and balanced complete what has been read to an
expression. -/
theorem isExpression_withOpenGroups (ts : List Token) (ls : List (List Token))
    (hls : ∀ l ∈ ls, AwaitsOperand l) (hc : closes ls.length ts = true) :
  (∀ l, AwaitsOperand l → Alternates .operand ts →
      IsExpression (withOpenGroups ls (l ++ ts)))
    ∧ ∀ d : Derivation Text 1, Alternates .operator ts →
      IsExpression (withOpenGroups ls (d.tokens ++ ts))
  := by
  induction ts generalizing ls with
  | nil =>
    constructor
    · intro l _ ha
      cases ha
    · intro d _
      cases ls with
      | nil => exact ⟨d, by simp [withOpenGroups]⟩
      | cons l ls => simp at hc
  | cons t ts ih =>
    constructor
    · intro l hl ha
      cases ha with
      | operand content ha =>
        obtain ⟨d, hd⟩ := hl (.operand content)
        have h := (ih ls hls (by simpa using hc)).2 d ha
        rw [hd] at h
        simpa [Derivation.tokens] using h
      | left ha =>
        have h := (ih (l :: ls) (by simpa using ⟨hl, hls⟩) (by simpa using hc)).1 []
          awaitsOperand_nil ha
        apply h
    · intro d ha
      cases ha with
      | operator o ha =>
        have h := (ih ls hls (by simpa using hc)).1 _ (awaitsOperand_append d o) ha
        simpa using h
      | right ha =>
        cases ls with
        | nil => simp at hc
        | cons l ls =>
          obtain ⟨e, he⟩ := hls l (by simp) (.group d)
          have h := (ih ls (fun l hl => hls l (by simp [hl])) (by simpa using hc)).2 e ha
          rw [he] at h
          simpa [withOpenGroups, Derivation.tokens] using h

/-- Tokens are an expression when the parentheses are balanced and operands and groups
alternate with operators, and only then. -/
theorem isExpression_iff (ts : List Token) :
  IsExpression ts ↔ closes 0 ts = true ∧ Alternates .operand ts
  := by
  constructor
  · rintro ⟨d, rfl⟩
    have hc := d.closes_tokens_append 0 []
    have ha := d.alternates_tokens_append .nil
    rw [List.append_nil] at hc ha
    exact ⟨hc, ha⟩
  · rintro ⟨hc, ha⟩
    apply (isExpression_withOpenGroups ts [] (by simp) hc).1 [] awaitsOperand_nil ha

/-! ### Counting operands -/

/-- Alternating tokens are separated, and where an operator is expected no operand starts. -/
theorem Token.Alternates.separated {e : Expected} {ts : List Token} (h : Alternates e ts) :
  Separated ts ∧ (e = .operator → ∀ t ∈ ts.head?, t.startsOperand = false)
  := by
  induction h with
  | nil => exact ⟨.nil, by simp⟩
  | operand content _ ih =>
    obtain ⟨hs, hn⟩ := ih
    exact ⟨hs.cons fun t ht => by simp [hn rfl t ht], by simp⟩
  | left _ ih => exact ⟨ih.1.cons fun t _ => rfl, by simp⟩
  | operator o _ ih => exact ⟨ih.1.cons fun t _ => rfl, by simp [startsOperand]⟩
  | right _ ih =>
    obtain ⟨hs, hn⟩ := ih
    exact ⟨hs.cons fun t ht => by simp [hn rfl t ht], by simp [startsOperand]⟩

/-- Separated tokens hold at most one operand more than operators, and no more where no
operand starts. With as many as that, they alternate. -/
theorem alternates_of_countP (ts : List Token) (hp : ∀ t ∈ ts, t.IsProper)
    (hs : Separated ts) :
  (ts.countP isOperand ≤ ts.countP isApplied + 1
      ∧ (ts.countP isOperand = ts.countP isApplied + 1 → Alternates .operand ts))
    ∧ ((∀ t ∈ ts.head?, t.startsOperand = false) →
      ts.countP isOperand ≤ ts.countP isApplied
        ∧ (ts.countP isOperand = ts.countP isApplied → Alternates .operator ts))
  := by
  induction ts with
  | nil => simp [Alternates.nil]
  | cons t ts ih =>
    obtain ⟨hn, hs⟩ := List.isChain_cons.mp hs
    obtain ⟨⟨le₁, eq₁⟩, ih₂⟩ := ih (fun t h => hp t (List.mem_cons_of_mem _ h)) hs
    cases hp t List.mem_cons_self with
    | operand content =>
      obtain ⟨le₂, eq₂⟩ := ih₂ fun t ht => by simpa [endsOperand] using hn t ht
      simp only [List.countP_cons, isOperand_operand, isApplied_operand, if_true,
        Bool.false_eq_true, if_false, Nat.add_zero, Nat.add_right_cancel_iff]
      refine ⟨⟨Nat.succ_le_succ le₂, fun h => .operand content (eq₂ h)⟩, ?_⟩
      simp [startsOperand]
    | operator o =>
      simp only [List.countP_cons, isOperand_token, isApplied_token, if_true,
        Bool.false_eq_true, if_false, Nat.add_zero]
      refine ⟨⟨Nat.le_succ_of_le le₁, fun h => ?_⟩, fun _ => ⟨le₁, fun h => ?_⟩⟩
      · omega
      · exact .operator o (eq₁ h)
    | left =>
      simp only [List.countP_cons, isOperand_left, isApplied_left, Bool.false_eq_true,
        if_false, Nat.add_zero]
      refine ⟨⟨le₁, fun h => .left (eq₁ h)⟩, ?_⟩
      simp [startsOperand]
    | right =>
      obtain ⟨le₂, eq₂⟩ := ih₂ fun t ht => by simpa [endsOperand] using hn t ht
      simp only [List.countP_cons, isOperand_right, isApplied_right, Bool.false_eq_true,
        if_false, Nat.add_zero]
      refine ⟨⟨Nat.le_succ_of_le le₂, fun h => ?_⟩, fun _ => ⟨le₂, fun h => .right (eq₂ h)⟩⟩
      omega

/-- Proper tokens with balanced parentheses and one operand more than operators are an
expression exactly when they are separated. -/
theorem isExpression_iff_separated {ts : List Token} (hp : ∀ t ∈ ts, t.IsProper)
    (hc : closes 0 ts = true) (hn : ts.countP isOperand = ts.countP isApplied + 1) :
  IsExpression ts ↔ Separated ts
  := by
  rw [isExpression_iff]
  constructor
  · rintro ⟨-, ha⟩
    apply ha.separated.1
  · intro hs
    exact ⟨hc, (alternates_of_countP ts hp hs).1.2 hn⟩

end SliderCalculator
