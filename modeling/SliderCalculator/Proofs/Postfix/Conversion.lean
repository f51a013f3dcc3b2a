import Mathlib.Data.List.TakeWhile
import SliderCalculator.Postfix.Yard
import SliderCalculator.Proofs.Grammar.Alternation

/-!
# Conversion to postfix order

The conversion of an expression is the postfix order of its tree. This rests on what a
yard has done when it has read an expression of some level in the middle of other tokens:
of the postfix order of the tree a first part is placed, and the rest waits, which are
operators that bind at least as tightly as the level.
-/

namespace SliderCalculator

open Token

namespace Yard

/-- Reading tokens after tokens that have been read without a failure. -/
theorem foldlM_append_of_eq_ok {y z : Yard} {ts : List Token}
    (h : ts.foldlM add? y = .ok z) (us : List Token) :
  (ts ++ us).foldlM add? y = us.foldlM add? z
  := by
  rw [List.foldlM_append, h]
  rfl

/-- Reading a token and then others. -/
theorem foldlM_cons_of_eq_ok {y z : Yard} {t : Token}
    (h : y.add? t = .ok z) (us : List Token) :
  (t :: us).foldlM add? y = us.foldlM add? z
  := by
  rw [List.foldlM_cons, h]
  rfl

variable (output stack : List Token)

theorem add?_token (o : Operator) :
  add? ⟨output, stack⟩ o.token = .ok (addOperator ⟨output, stack⟩ o.token)
  := rfl

/-- A left parenthesis waits and lets all others wait. -/
theorem add?_left :
  add? ⟨output, stack⟩ leftParenthesis = .ok ⟨output, leftParenthesis :: stack⟩
  := by
  have hy : (fun t => yields t leftParenthesis) = fun _ => false := by
    funext t
    simp only [yields, precedence?_leftParenthesis]
    split <;> first | rfl | contradiction
  have ha : add? ⟨output, stack⟩ leftParenthesis
      = .ok (addOperator ⟨output, stack⟩ leftParenthesis) := rfl
  rw [ha, addOperator, hy]
  cases stack <;> simp

/-- A right parenthesis places what waits since the left one. -/
theorem add?_right {waiting : List Token} (h : ∀ t ∈ waiting, t.isLeft = false) :
  add? ⟨output, waiting ++ leftParenthesis :: stack⟩ rightParenthesis
    = .ok ⟨output ++ waiting, stack⟩
  := by
  have hw : ∀ t ∈ waiting, (!t.isLeft) = true := by simpa using h
  have ha : accepts ⟨output, waiting ++ leftParenthesis :: stack⟩ rightParenthesis = true := by
    simp [accepts]
  rw [add?, if_pos ha]
  simp [add, closeGroup, List.takeWhile_append_of_pos hw, List.dropWhile_append_of_pos hw]

/-! ### Expressions -/

/-- Whether operators of a level can wait on top of a stack: the token at the top binds
less tightly, if it is an operator at all. -/
def Admits (n : Nat) (stack : List Token) : Prop :=
  ∀ t ∈ stack.head?, ∀ p ∈ t.precedence?, p < n

theorem Admits.mono {m n : Nat} {stack : List Token} (h : Admits m stack) (hmn : m ≤ n) :
  Admits n stack
  := fun t ht p hp => Nat.lt_of_lt_of_le (h t ht p hp) hmn

/-- The waiting operators that bind at least as tightly as an operator are placed before
it waits. -/
theorem addOperator_token {o : Operator} {waiting : List Token} (hs : Admits o.precedence stack)
    (hw : ∀ t ∈ waiting, ∃ o' : Operator, t = o'.token ∧ o.precedence ≤ o'.precedence) :
  addOperator ⟨output, waiting ++ stack⟩ o.token
    = ⟨output ++ waiting, o.token :: stack⟩
  := by
  have hy : ∀ t ∈ waiting, yields t o.token = true := by
    intro t ht
    obtain ⟨o', rfl, ho⟩ := hw t ht
    simpa [yields] using ho
  have hn : ∀ t ∈ stack.head?, yields t o.token = false := by
    intro t ht
    cases hp : t.precedence? with
    | none => simp [yields, hp]
    | some p => simpa [yields, hp] using hs t ht p hp
  rw [addOperator]
  simp only [List.takeWhile_append_of_pos hy, List.dropWhile_append_of_pos hy]
  cases stack with
  | nil => simp
  | cons t stack => simp [hn t rfl]

/-- What a yard has done when it has read an expression of a level. -/
theorem foldlM_tokens {n : Nat} (d : Derivation Text n) (hs : Admits n stack) :
  ∃ placed waiting,
    d.tokens.foldlM add? ⟨output, stack⟩ = .ok ⟨output ++ placed, waiting ++ stack⟩
      ∧ placed ++ waiting = d.tree.postorder
      ∧ ∀ t ∈ waiting, ∃ o : Operator, t = o.token ∧ n ≤ o.precedence
  := by
  induction d generalizing output stack with
  | operand content =>
    use [operand content], []
    exact ⟨rfl, rfl, by simp⟩
  | group d ih =>
    -- nothing waits for an operator across a parenthesis
    obtain ⟨placed, waiting, hd, htree, hw⟩ :=
      ih output (leftParenthesis :: stack) (by simp [Admits])
    use placed ++ waiting, []
    refine ⟨?_, by rw [List.append_nil]; exact htree, by simp⟩
    have hl : ∀ t ∈ waiting, t.isLeft = false := by
      intro t ht
      obtain ⟨o, rfl, -⟩ := hw t ht
      rfl
    rw [Derivation.tokens, foldlM_cons_of_eq_ok (add?_left _ _), foldlM_append_of_eq_ok hd,
      foldlM_cons_of_eq_ok (add?_right _ _ hl)]
    simp [pure, Except.pure]
  | loosen h d ih =>
    obtain ⟨placed, waiting, hd, htree, hw⟩ := ih output stack (hs.mono (Nat.le_succ _))
    use placed, waiting, hd, htree
    intro t ht
    obtain ⟨o, rfl, ho⟩ := hw t ht
    exact ⟨o, rfl, Nat.le_of_succ_le ho⟩
  | binary o l r ihl ihr =>
    obtain ⟨placedl, waitingl, hl, htreel, hwl⟩ := ihl output stack hs
    obtain ⟨placedr, waitingr, hr, htreer, hwr⟩ :=
      ihr (output ++ placedl ++ waitingl) (o.token :: stack) (by simp [Admits])
    use placedl ++ waitingl ++ placedr, waitingr ++ [o.token]
    refine ⟨?_, ?_, ?_⟩
    · rw [Derivation.tokens, foldlM_append_of_eq_ok hl, foldlM_cons_of_eq_ok (add?_token _ _ _),
        addOperator_token _ _ hs hwl, hr]
      simp
    · rw [Derivation.tree, Tree.postorder, ← htreel, ← htreer]
      simp
    · intro t ht
      obtain ht | ht := List.mem_append.mp ht
      · obtain ⟨o', rfl, ho⟩ := hwr t ht
        exact ⟨o', rfl, Nat.le_of_succ_le ho⟩
      · obtain rfl := List.mem_singleton.mp ht
        exact ⟨o, rfl, Nat.le_refl _⟩

/-- A yard that has read nothing but an expression is left with the postfix order of the
tree. -/
theorem exists_finish_tokens {n : Nat} (d : Derivation Text n) :
  ∃ y, d.tokens.foldlM add? empty = .ok y ∧ y.finish = .ok d.tree.postorder
  := by
  obtain ⟨placed, waiting, hd, htree, hw⟩ := foldlM_tokens [] [] d (by simp [Admits])
  have hl : (waiting ++ []).any isLeft = false := by
    rw [List.append_nil, List.any_eq_false]
    intro t ht
    obtain ⟨o, rfl, -⟩ := hw t ht
    simp
  use ⟨[] ++ placed, waiting ++ []⟩, hd
  simp only [finish, hl]
  simp [htree]

end Yard

/-- The conversion of an expression is the postfix order of its tree. -/
theorem toPostfix_tokens {n : Nat} (d : Derivation Text n) :
  toPostfix d.tokens = .ok d.tree.postorder
  := by
  obtain ⟨y, hy, hf⟩ := Yard.exists_finish_tokens d
  rw [toPostfix, hy]
  apply hf

end SliderCalculator
