import SliderCalculator.Proofs.Grammar.Alternation

/-!
# Trees in postfix order

A list of tokens is a tree in postfix order when its operands are the leaves and each of its other
tokens has the sign of an operator and follows the trees of its two operands. What kind these other
tokens have does not matter. Tokens are in postfix order for one tree at most, and several such
lists one after the other are so for one list of trees at most: `ArePostfix.unique`.
-/

namespace SliderCalculator

open Token

/-- The usual token of an operator is the one that formulas are read as. -/
theorem Token.IsProper.eq_token {t : Token} (h : t.IsProper) (hk : t.isOperand = false)
    {o : Operator} (ho : t.content = [o.sign]) :
  t = o.token
  := by
  have hn := operator?_iff.mpr ho
  cases h with
  | operand content => contradiction
  | operator o' =>
    obtain rfl : o' = o := by simpa using hn
    rfl
  | left | right => contradiction

namespace Tree

/-- Whether tokens are a tree in postfix order: operands at its leaves, and at its inner nodes
tokens of other kinds with the signs of the operators. -/
inductive IsPostfix : Tree Text → List Token → Prop where
  | leaf {t : Token} (hk : t.isOperand = true) : IsPostfix (leaf t.content) [t]
  | node {o : Operator} {l r : Tree Text} {us vs : List Token} {t : Token} (hl : l.IsPostfix us)
      (hr : r.IsPostfix vs) (hk : t.isOperand = false) (ht : t.content = [o.sign]) :
      IsPostfix (node o l r) (us ++ vs ++ [t])

/-- Whether tokens are several trees in postfix order, one after the other. The last tree comes
first in the list of trees. -/
inductive ArePostfix : List (Tree Text) → List Token → Prop where
  | nil : ArePostfix [] []
  | cons {t : Tree Text} {trees : List (Tree Text)} {us vs : List Token}
      (hs : ArePostfix trees us) (ht : t.IsPostfix vs) : ArePostfix (t :: trees) (us ++ vs)

/-- The postfix order of a tree in tokens of the usual kinds. -/
theorem isPostfix_postorder (t : Tree Text) :
  t.IsPostfix t.postorder
  := by
  induction t with
  | leaf content => exact .leaf (t := operand content) rfl
  | node o l r ihl ihr => exact .node ihl ihr rfl rfl

/-- In tokens of the usual kinds there is no other postfix order. -/
theorem IsPostfix.eq_postorder {t : Tree Text} {ts : List Token} (h : t.IsPostfix ts)
    (hts : ∀ s ∈ ts, s.IsProper) :
  ts = t.postorder
  := by
  induction h with
  | @leaf s hk =>
    cases hts s List.mem_cons_self with
    | operand content => rfl
    | operator | left | right => contradiction
  | @node o l r us vs s _ _ hk hs ihl ihr =>
    have hu : us = l.postorder := ihl fun u hu => hts u (by simp [hu])
    have hv : vs = r.postorder := ihr fun u hu => hts u (by simp [hu])
    have ht : s = o.token := (hts s (by simp)).eq_token hk hs
    rw [postorder, hu, hv, ht]

/-! ### Unique reading -/

/-- The trees after a token, the newest first: an operand is a new tree, and an operator makes one
tree of the two newest. -/
def build (trees : List (Tree Text)) (t : Token) : List (Tree Text) :=
  if t.isOperand then
    leaf t.content :: trees
  else
    match trees, t.operator? with
    | r :: l :: rest, some o => node o l r :: rest
    | trees, _ => trees

/-- A tree is built from its postfix order. -/
theorem IsPostfix.foldl_build {t : Tree Text} {ts : List Token} (h : t.IsPostfix ts)
    (trees : List (Tree Text)) :
  ts.foldl build trees = t :: trees
  := by
  induction h generalizing trees with
  | leaf hk => simp [build, hk]
  | node _ _ hk hs ihl ihr =>
    rw [List.foldl_append, List.foldl_append, ihl, ihr]
    simp [build, hk, operator?_iff.mpr hs]

/-- So are several trees. -/
theorem ArePostfix.foldl_build {trees : List (Tree Text)} {ts : List Token}
    (h : ArePostfix trees ts) :
  ts.foldl build [] = trees
  := by
  induction h with
  | nil => rfl
  | cons _ ht ih => rw [List.foldl_append, ih, ht.foldl_build]

/-- Tokens are in postfix order for one list of trees at most. -/
theorem ArePostfix.unique {trees trees' : List (Tree Text)} {ts : List Token}
    (h : ArePostfix trees ts) (h' : ArePostfix trees' ts) :
  trees = trees'
  := by
  rw [← h.foldl_build, h'.foldl_build]

/-- A tree in postfix order is the only one of a list of trees. -/
theorem IsPostfix.arePostfix {t : Tree Text} {ts : List Token} (h : t.IsPostfix ts) :
  ArePostfix [t] ts
  := .cons .nil h

/-- Tokens are the postfix order of one tree at most. -/
theorem IsPostfix.unique {t u : Tree Text} {ts : List Token} (ht : t.IsPostfix ts)
    (hu : u.IsPostfix ts) :
  t = u
  := List.head_eq_of_cons_eq (ht.arePostfix.unique hu.arePostfix)

end Tree

end SliderCalculator
