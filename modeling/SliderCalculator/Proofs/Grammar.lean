import Mathlib.Tactic.Common
import SliderCalculator.Token

/-!
# The grammar of expressions

A derivation of an expression has a level, which tells how tightly the operators outside
of parentheses bind at least: 1 for sums, 2 for products, 3 for powers and 4 for operands
and groups. An operator takes on its left an expression of the level of its precedence, so
that operators of equal precedence group to the left, and on its right an expression of
the next level.

A derivation is spelled in the usual order by its tokens or by its text, and stands for a
tree, which is spelled in postfix order.
-/

namespace SliderCalculator

/-- The token of an operator. -/
def Operator.token (o : Operator) : Token :=
  Token.operator [o.sign]

@[simp]
theorem Operator.operator?_token (o : Operator) :
  o.token.operator? = some o
  := ofSign?_sign o

@[simp]
theorem Operator.precedence?_token (o : Operator) :
  o.token.precedence? = some o.precedence
  := by
  simp [Token.precedence?]

/-- A character is the sign of the operator that it is read as, and of no other. -/
theorem Operator.ofSign?_iff {c : Char} {o : Operator} :
  ofSign? c = some o ↔ o.sign = c
  := by
  constructor
  · unfold ofSign?
    split <;> rintro ⟨⟩ <;> rfl
  · rintro rfl
    apply ofSign?_sign

/-- A token names an operator when its text is the sign of the operator. -/
theorem Token.operator?_iff {t : Token} {o : Operator} :
  t.operator? = some o ↔ t.content = [o.sign]
  := by
  constructor
  · unfold operator? Operator.ofText?
    split
    next c hc =>
      intro h
      rw [hc, Operator.ofSign?_iff.mp h]
    next => rintro ⟨⟩
  · intro h
    rw [operator?, h]
    apply Operator.ofSign?_sign

theorem Operator.precedence_pos (o : Operator) :
  0 < o.precedence
  := by
  cases o <;> decide

theorem Operator.precedence_lt (o : Operator) :
  o.precedence < 4
  := by
  cases o <;> decide

variable {α β : Type} {n : Nat}

/-- A tree with operators at its inner nodes. -/
inductive Tree (α : Type) where
  | leaf (a : α)
  | node (o : Operator) (left right : Tree α)

namespace Tree

/-- The tree with other leaves. -/
def map (f : α → β) : Tree α → Tree β
  | leaf a => leaf (f a)
  | node o l r => node o (l.map f) (r.map f)

/-- The tokens of a tree in postfix order: an operator follows its two operands. -/
def postorder : Tree Text → List Token
  | leaf content => [Token.operand content]
  | node o l r => l.postorder ++ r.postorder ++ [o.token]

/-- What a tree evaluates to, the left operand of an operator before the right one. -/
def evaluate (value : α → Float) : Tree α → Except Error Float
  | leaf a => .ok (value a)
  | node o l r => do
    let x ← l.evaluate value
    let y ← r.evaluate value
    o.apply x y

theorem postorder_ne_nil (t : Tree Text) :
  t.postorder ≠ []
  := by
  cases t with
  | leaf content => apply List.cons_ne_nil
  | node o l r => apply List.append_ne_nil_of_right_ne_nil _ (List.cons_ne_nil _ _)

end Tree

/-- A derivation of an expression of a level. -/
inductive Derivation (α : Type) : Nat → Type where
  /-- An operand. -/
  | operand (a : α) : Derivation α 4
  /-- An expression of any kind in parentheses. -/
  | group (d : Derivation α 1) : Derivation α 4
  /-- An expression of the next level. -/
  | loosen {n : Nat} (h : 0 < n) (d : Derivation α (n + 1)) : Derivation α n
  /-- An operator between two expressions. -/
  | binary (o : Operator) (left : Derivation α o.precedence)
      (right : Derivation α (o.precedence + 1)) : Derivation α o.precedence

namespace Derivation

/-- The derivation with other operands. -/
def map (f : α → β) : {n : Nat} → Derivation α n → Derivation β n
  | _, operand a => operand (f a)
  | _, group d => group (d.map f)
  | _, loosen h d => loosen h (d.map f)
  | _, binary o l r => binary o (l.map f) (r.map f)

/-- The tree that a derivation stands for. -/
def tree : {n : Nat} → Derivation α n → Tree α
  | _, operand a => .leaf a
  | _, group d => d.tree
  | _, loosen _ d => d.tree
  | _, binary o l r => .node o l.tree r.tree

/-- The operands of a derivation from left to right. -/
def operands : {n : Nat} → Derivation α n → List α
  | _, operand a => [a]
  | _, group d => d.operands
  | _, loosen _ d => d.operands
  | _, binary _ l r => l.operands ++ r.operands

/-- The tokens of a derivation in the usual order. -/
def tokens : {n : Nat} → Derivation Text n → List Token
  | _, operand content => [Token.operand content]
  | _, group d => Token.leftParenthesis :: (d.tokens ++ [Token.rightParenthesis])
  | _, loosen _ d => d.tokens
  | _, binary o l r => l.tokens ++ o.token :: r.tokens

/-- The text of a derivation in the usual order. -/
def text : {n : Nat} → Derivation Text n → Text
  | _, operand content => content
  | _, group d => '(' :: (d.text ++ [')'])
  | _, loosen _ d => d.text
  | _, binary o l r => l.text ++ o.sign :: r.text

/-- Operands may be replaced in two steps. -/
theorem map_map {γ : Type} (g : β → γ) (f : α → β) (d : Derivation α n) :
  (d.map f).map g = d.map fun a => g (f a)
  := by
  induction d with
  | operand a => rfl
  | group d ih => simp only [map, ih]
  | loosen h d ih => simp only [map, ih]
  | binary o l r ihl ihr => simp only [map, ihl, ihr]

/-- The expression at a lower level. -/
theorem exists_tokens_eq_of_le {m : Nat} (hm : 0 < m) (h : m ≤ n) (d : Derivation Text n) :
  ∃ e : Derivation Text m, e.tokens = d.tokens
  := by
  induction h with
  | refl => exact ⟨d, rfl⟩
  | @step k h ih =>
    obtain ⟨e, he⟩ := ih (loosen (Nat.lt_of_lt_of_le hm h) d)
    exact ⟨e, he⟩

/-- An operator that binds no more tightly than the level of an expression takes the whole
expression as its left operand. -/
theorem exists_tokens_eq_binary (l : Derivation Text n) {o : Operator} (h : o.precedence ≤ n)
    (p : Derivation Text 4) {m : Nat} (hm : 0 < m) (ho : m ≤ o.precedence) :
  ∃ e : Derivation Text m, e.tokens = l.tokens ++ o.token :: p.tokens
  := by
  obtain ⟨l', hl⟩ := exists_tokens_eq_of_le o.precedence_pos h l
  obtain ⟨r, hr⟩ := exists_tokens_eq_of_le (Nat.succ_pos _) o.precedence_lt p
  obtain ⟨e, he⟩ := exists_tokens_eq_of_le hm ho (binary o l' r)
  use e
  rw [he, tokens, hl, hr]

/-- An expression can be continued by an operator and an operand or group. The operator
takes as its left operand as much of the end of the expression as binds no less tightly. -/
theorem exists_tokens_eq_append (d : Derivation Text n) {o : Operator}
    (p : Derivation Text 4) {m : Nat} (hm : 0 < m) (hn : m ≤ n) (ho : m ≤ o.precedence) :
  ∃ e : Derivation Text m, e.tokens = d.tokens ++ o.token :: p.tokens
  := by
  induction d generalizing m with
  | operand content =>
    apply exists_tokens_eq_binary _ (Nat.le_of_lt o.precedence_lt) p hm ho
  | group d _ =>
    apply exists_tokens_eq_binary _ (Nat.le_of_lt o.precedence_lt) p hm ho
  | loosen h d ih =>
    apply ih hm (Nat.le_succ_of_le hn) ho
  | binary o' l r _ ihr =>
    by_cases h : o.precedence ≤ o'.precedence
    · apply exists_tokens_eq_binary (binary o' l r) h p hm ho
    · -- the operator binds more tightly, so it stays within the right operand
      obtain ⟨r', hr⟩ := ihr (Nat.succ_pos _) (Nat.le_refl _) (by omega)
      obtain ⟨e, he⟩ := exists_tokens_eq_of_le hm hn (binary o' l r')
      use e
      simp only [he, tokens, hr, List.append_assoc, List.cons_append]

end Derivation

/-- Whether tokens are an expression in the usual order. -/
def IsExpression (ts : List Token) : Prop :=
  ∃ d : Derivation Text 1, d.tokens = ts

end SliderCalculator
