import Mathlib.Data.List.Chain
import SliderCalculator.Postfix.Yard
import SliderCalculator.Proofs.TakeWhile

/-!
# Precedence on the stack

The tokens that wait in a yard are ordered: an operator lies on another one only if it binds more
tightly. Parentheses and tokens that name no operator stand apart from this, and between two of
them at most three operators wait in a row. Whenever tokens leave the stack, the precedences of such
operators fall. This holds after any tokens, those included that the yard has refused:
`isOrdered_foldl_add`.
-/

namespace SliderCalculator

namespace Token

/-- Whether both of two tokens name an operator, and the first one binds more tightly. -/
def BindsMoreTightly (t u : Token) : Prop :=
  ∃ p q, t.precedence? = some p ∧ u.precedence? = some q ∧ q < p

/-- Whether a token may lie on another one: if both name an operator, it binds more tightly. -/
def MayLieOn (t u : Token) : Prop :=
  t.precedence?.isSome = true → u.precedence?.isSome = true → t.BindsMoreTightly u

/-- Whether all tokens of a list name an operator. -/
def AreKnown (ts : List Token) : Prop :=
  ∀ t ∈ ts, t.precedence?.isSome = true

/-- Whether precedences fall along the operators of a list: where tokens in a row all name an
operator, each binds more tightly than all that come after it. -/
def Fall (ts : List Token) : Prop :=
  ∀ run, run <:+: ts → AreKnown run → run.Pairwise BindsMoreTightly

variable {t u w : Token} {ts : List Token}

theorem BindsMoreTightly.trans (h : t.BindsMoreTightly u) (h' : u.BindsMoreTightly w) :
  t.BindsMoreTightly w
  := by
  obtain ⟨p, q, hp, hq, hlt⟩ := h
  obtain ⟨q', r, hq', hr, hlt'⟩ := h'
  rw [hq, Option.some.injEq] at hq'
  exact ⟨p, r, hp, hr, by omega⟩

instance : IsTrans Token BindsMoreTightly where
  trans _ _ _ := BindsMoreTightly.trans

/-- Precedences are numbers from one to three. -/
theorem precedence?_bounds {p : Nat} (h : t.precedence? = some p) :
  1 ≤ p ∧ p ≤ 3
  := by
  obtain ⟨o, -, rfl⟩ := Option.map_eq_some_iff.mp h
  cases o <;> decide

/-- Along tokens in a row that lie on each other the precedences fall. -/
theorem fall_of_isChain (h : ts.IsChain MayLieOn) :
  Fall ts
  := by
  intro run hrun hk
  rw [← List.isChain_iff_pairwise]
  have hc : run.IsChain MayLieOn := h.infix hrun
  apply hc.imp_of_mem_imp
  intro t u ht hu htu
  apply htu (hk t ht) (hk u hu)

/-- Tokens along which the precedences fall are no more than the precedence of the first one. -/
theorem length_le_of_pairwise {p : Nat} (h : (t :: ts).Pairwise BindsMoreTightly)
    (ht : t.precedence? = some p) :
  (t :: ts).length ≤ p
  := by
  induction ts generalizing t p with
  | nil => exact (precedence?_bounds ht).1
  | cons u ts ih =>
    obtain ⟨htu, h⟩ := List.pairwise_cons.mp h
    obtain ⟨p', q, hp', hq, hlt⟩ := htu u List.mem_cons_self
    rw [ht, Option.some.injEq] at hp'
    have hle := ih h hq
    rw [List.length_cons]
    omega

/-- So they are at most three. -/
theorem Fall.length_le (h : Fall ts) {run : List Token} (hrun : run <:+: ts) (hk : AreKnown run) :
  run.length ≤ 3
  := by
  have hp := h run hrun hk
  cases run with
  | nil => exact Nat.zero_le 3
  | cons t run =>
    obtain ⟨p, ht⟩ := Option.isSome_iff_exists.mp (hk t List.mem_cons_self)
    exact (length_le_of_pairwise hp ht).trans (precedence?_bounds ht).2

end Token

open Token

namespace Yard

variable {y : Yard} {t u : Token}

/-- A token that does not make way for another one may have it lie on it. -/
theorem mayLieOn_of_yields_eq_false (h : yields u t = false) :
  t.MayLieOn u
  := by
  intro ht hu
  obtain ⟨p, hp⟩ := Option.isSome_iff_exists.mp ht
  obtain ⟨q, hq⟩ := Option.isSome_iff_exists.mp hu
  rw [yields, hp, hq, decide_eq_false_iff_not, not_le] at h
  exact ⟨p, q, hp, hq, h⟩

/-- Only operators make way. -/
theorem isSome_precedence?_of_yields (h : yields u t = true) :
  u.precedence?.isSome = true
  := by
  rw [yields] at h
  split at h
  case h_1 hw _ => rw [hw, Option.isSome_some]
  case h_2 => contradiction

/-- Whether an operator that waits in a yard lies on another one only if it binds more tightly, and
no right parenthesis waits. -/
structure IsOrdered (y : Yard) : Prop where
  isChain : y.stack.IsChain MayLieOn
  isRight : ∀ t ∈ y.stack, t.isRight = false

theorem isOrdered_empty :
  empty.IsOrdered
  := ⟨.nil, by simp [empty]⟩

/-- What is left of the stack when tokens are taken off it is ordered. -/
theorem IsOrdered.of_suffix (h : y.IsOrdered) {stack : List Token} (hs : stack <:+ y.stack)
    (output : List Token) :
  IsOrdered ⟨output, stack⟩
  := ⟨h.isChain.suffix hs, fun t ht => h.isRight t (hs.mem ht)⟩

/-- A token keeps the stack ordered, whether or not it is accepted. -/
theorem IsOrdered.add (h : y.IsOrdered) (t : Token) :
  (y.add t).IsOrdered
  := by
  rw [Yard.add]
  split
  case isTrue => exact h.of_suffix List.suffix_rfl _
  case isFalse =>
    split
    case isTrue =>
      apply h.of_suffix
      exact (List.tail_suffix _).trans (List.dropWhile_suffix _)
    case isFalse hr =>
      have hd : IsOrdered ⟨y.output, y.stack.dropWhile (yields · t)⟩ :=
        h.of_suffix (List.dropWhile_suffix _) _
      constructor
      · apply hd.isChain.cons
        intro u hu
        -- the first token that stays does not make way
        apply mayLieOn_of_yields_eq_false
        apply head?_dropWhile u hu
      · intro u hu
        obtain rfl | hu := List.mem_cons.mp hu
        · apply eq_false_of_ne_true hr
        · apply hd.isRight u hu

/-- The stack is ordered after any tokens. -/
theorem IsOrdered.foldl_add (h : y.IsOrdered) (ts : List Token) :
  (ts.foldl Yard.add y).IsOrdered
  := by
  induction ts generalizing y with
  | nil => apply h
  | cons t ts ih => apply ih (h.add t)

/-- What a token that is no operand places comes off the top of the stack. -/
theorem exists_output_add (ht : t.isOperand = false) :
  ∃ popped rest, y.stack = popped ++ rest ∧ (y.add t).output = y.output ++ popped
    ∧ (t.isRight = false → AreKnown popped)
  := by
  rw [Yard.add, ht, if_neg Bool.false_ne_true]
  split
  case isTrue hr =>
    refine ⟨_, _, (List.takeWhile_append_dropWhile).symm, rfl, ?_⟩
    rw [hr]
    intro hr
    contradiction
  case isFalse hr =>
    refine ⟨_, _, (List.takeWhile_append_dropWhile).symm, rfl, ?_⟩
    intro _ u hu
    have hy := List.mem_takeWhile_imp hu
    apply isSome_precedence?_of_yields hy

/-- After any tokens, accepted or not, an operator on the stack binds more tightly than one that it
lies on, no right parenthesis waits, and at most three operators wait in a row. What a token takes
off the stack comes off with falling precedences, and so does all that waits at the end. -/
theorem isOrdered_foldl_add (ts : List Token) :
  let y := ts.foldl Yard.add Yard.empty
  y.stack.IsChain MayLieOn
    ∧ (∀ t ∈ y.stack, t.isRight = false)
    ∧ (∀ run, run <:+: y.stack → AreKnown run → run.length ≤ 3)
    ∧ (∀ t, t.isOperand = false →
      ∃ popped rest, y.stack = popped ++ rest ∧ (y.add t).output = y.output ++ popped ∧ Fall popped
        ∧ (t.isRight = false → AreKnown popped))
    ∧ Fall y.stack ∧ ∀ p, y.finish = .ok p → p = y.output ++ y.stack
  := by
  intro y
  have h : y.IsOrdered := isOrdered_empty.foldl_add ts
  have hf : Fall y.stack := fall_of_isChain h.isChain
  refine ⟨h.isChain, h.isRight, fun run => hf.length_le, ?_, hf, ?_⟩
  · intro t ht
    obtain ⟨popped, rest, hs, ho, hk⟩ := exists_output_add (y := y) ht
    refine ⟨popped, rest, hs, ho, ?_, hk⟩
    apply fall_of_isChain
    apply h.isChain.prefix
    rw [hs]
    apply List.prefix_append
  · intro p hp
    rw [finish] at hp
    split at hp
    case isTrue => contradiction
    case isFalse =>
      cases hp
      rfl

-- a sum under a product under a power, and an operator that is not known
example :
  ([operand ['2'], operator ['+'], operand ['3'], operator ['%'], operand ['4'], operator ['-'],
      operand ['5'], operator ['*'], operand ['6'], operator ['^']].foldl Yard.add empty).stack
    = [operator ['^'], operator ['*'], operator ['-'], operator ['%'], operator ['+']]
  := by decide

end Yard

end SliderCalculator
