import SliderCalculator.Proofs.Calculation.Grammatical
import SliderCalculator.Proofs.Token.Places

/-!
# Formulas without parentheses

A formula without parentheses has a value only when its tokens are a chain, which is operands with
an operator between each two. The number of a chain is found in three passes, one for each
precedence, in each of which the operators of the precedence are applied from left to right: powers
first, then products and quotients, and sums and differences at last. The main statement is
`hasValue_iff_chain`.
-/

namespace SliderCalculator

open Formula Token

/-- An operator is told by its token. -/
theorem Operator.token_injective {o o' : Operator} (h : o.token = o'.token) :
  o = o'
  := by
  have ho := congrArg Token.operator? h
  simpa using ho

/-- Operands with an operator between each two. The last operand comes last. -/
inductive Chain (α : Type) where
  | operand (a : α)
  | extend (c : Chain α) (o : Operator) (a : α)
deriving DecidableEq, Repr

namespace Chain

variable {α β : Type} {o : Operator} {p n : Nat}

/-- The chain with other operands. -/
def map (f : α → β) : Chain α → Chain β
  | operand a => operand (f a)
  | extend c o a => extend (c.map f) o (f a)

/-- The tokens of a chain. -/
def tokens : Chain Text → List Token
  | operand content => [Token.operand content]
  | extend c o content => c.tokens ++ [o.token, Token.operand content]

/-- Two chains with an operator between them. -/
def append (c : Chain α) (o : Operator) : Chain α → Chain α
  | operand a => extend c o a
  | extend d o' a => extend (c.append o d) o' a

/-- The chain with another last operand. -/
def mapLast (f : α → α) : Chain α → Chain α
  | operand a => operand (f a)
  | extend c o a => extend c o (f a)

/-- A pass over a chain from left to right. An operator of the precedence is applied to what stands
before it at that time and the operand after it; the others stay. -/
def pass (p : Nat) : Chain Float → Chain Float
  | operand x => operand x
  | extend c o y =>
    if o.precedence = p then (c.pass p).mapLast (o.compute · y) else extend (c.pass p) o y

/-- The operands right after signs of division. -/
def divisors : Chain Float → List Float
  | operand _ => []
  | extend c o y => c.divisors ++ if o = .division then [y] else []

/-- The values of the operands of a chain. -/
def numbers (c : Chain Text) : Chain Float :=
  c.map fun content => operandValue (Token.operand content)

/-- Whether a division meets a divisor that is a zero of either sign, when the powers have been
computed. -/
def dividesByZero (c : Chain Float) : Bool :=
  (c.pass 3).divisors.any (· == 0.0)

/-! ### Tokens -/

theorem tokens_append (c d : Chain Text) (o : Operator) :
  (c.append o d).tokens = c.tokens ++ o.token :: d.tokens
  := by
  induction d with
  | operand content => rfl
  | extend d o' content ih => simp [append, tokens, ih]

/-- A chain has no parentheses. -/
theorem left_not_mem_tokens (c : Chain Text) :
  leftParenthesis ∉ c.tokens
  := by
  induction c with
  | operand content =>
    rw [tokens, List.mem_singleton]
    nofun
  | extend c o content ih =>
    simp only [tokens, List.mem_append, List.mem_cons, List.not_mem_nil, or_false, not_or]
    exact ⟨ih, nofun, nofun⟩

/-- The tokens of a chain tell the chain. -/
theorem tokens_injective {c d : Chain Text} (h : c.tokens = d.tokens) :
  c = d
  := by
  induction c generalizing d with
  | operand content =>
    cases d with
    | operand content' =>
      cases h
      rfl
    | extend d o' content' =>
      have hl := congrArg List.length h
      simp only [tokens, List.length_append, List.length_cons, List.length_nil] at hl
      omega
  | extend c o content ih =>
    cases d with
    | operand content' =>
      have hl := congrArg List.length h
      simp only [tokens, List.length_append, List.length_cons, List.length_nil] at hl
      omega
    | extend d o' content' =>
      obtain ⟨hc, hs⟩ := List.append_inj' h rfl
      simp only [List.cons.injEq, and_true] at hs
      obtain rfl := ih hc
      obtain rfl := Operator.token_injective hs.1
      cases hs.2
      rfl

/-- The tokens of a chain are an expression. -/
theorem isExpression_tokens (c : Chain Text) :
  IsExpression c.tokens
  := by
  induction c with
  | operand content =>
    exact Derivation.exists_tokens_eq_of_le (by decide) (by decide) (.operand content)
  | extend c o content ih =>
    obtain ⟨d, hd⟩ := ih
    have h := awaitsOperand_append d o (.operand content)
    rw [hd, List.append_assoc] at h
    apply h

/-! ### Passes -/

theorem map_append (f : α → β) (c d : Chain α) (o : Operator) :
  (c.append o d).map f = (c.map f).append o (d.map f)
  := by
  induction d with
  | operand a => rfl
  | extend d o' a ih => simp [append, map, ih]

theorem mapLast_append (f : α → α) (c d : Chain α) (o : Operator) :
  (c.append o d).mapLast f = c.append o (d.mapLast f)
  := by
  cases d <;> rfl

/-- A pass treats the parts around an operator of another precedence one by one. -/
theorem pass_append (h : o.precedence ≠ p) (c d : Chain Float) :
  (c.append o d).pass p = (c.pass p).append o (d.pass p)
  := by
  induction d with
  | operand y => simp only [append, pass, if_neg h]
  | extend d o' y ih =>
    rw [append, pass, pass, ih]
    split
    · rw [mapLast_append]
    · rfl

/-- The passes for the precedences from `n` on, the highest one first. -/
def passes (n : Nat) (c : Chain Float) : Chain Float :=
  match n with
  | 1 => ((c.pass 3).pass 2).pass 1
  | 2 => (c.pass 3).pass 2
  | 3 => c.pass 3
  | _ => c

/-- The pass for a precedence comes after those for the higher ones. -/
theorem passes_eq (hn : 0 < n) (h : n < 4) (c : Chain Float) :
  c.passes n = (c.passes (n + 1)).pass n
  := by
  match n with
  | 1 | 2 | 3 => rfl

/-- When the passes for higher precedences come to a single operand, so do those for lower ones. -/
theorem passes_eq_operand_of_le {c : Chain Float} {x : Float} {m : Nat} (hm : 0 < m) (h : m ≤ n)
    (hc : c.passes n = operand x) :
  c.passes m = operand x
  := by
  induction h with
  | refl => apply hc
  | @step k hk ih =>
    apply ih
    by_cases h4 : k < 4
    · rw [passes_eq (Nat.lt_of_lt_of_le hm hk) h4, hc]
      rfl
    · -- there are no passes from either precedence on
      have hp : c.passes k = c.passes (k + 1) := by
        match k with
        | k + 4 => rfl
      rw [hp, hc]

/-- The passes for higher precedences treat the parts around an operator one by one. -/
theorem passes_append (h : o.precedence < n) (c d : Chain Float) :
  (c.append o d).passes n = (c.passes n).append o (d.passes n)
  := by
  unfold passes
  split
  · have hp := o.precedence_pos
    omega
  · rw [pass_append (by omega), pass_append (by omega)]
  · rw [pass_append (by omega)]
  · rfl

/-- The divisors of two chains with an operator other than division between them. -/
theorem divisors_append (h : o ≠ .division) (c d : Chain Float) :
  (c.append o d).divisors = c.divisors ++ d.divisors
  := by
  induction d with
  | operand y => simp [append, divisors, h]
  | extend d o' y ih => simp [append, divisors, ih]

end Chain

/-! ### Trees -/

namespace Derivation

/-- Whether a chain has the tokens of a derivation, and the passes of its level come to the number
of its tree and meet the divisors of its tree. -/
structure IsReadAs {n : Nat} (d : Derivation Text n) (c : Chain Text) : Prop where
  tokens : c.tokens = d.tokens
  passes : c.numbers.passes n = .operand d.tree.number
  divisors : (c.numbers.pass 3).divisors = d.tree.divisors

namespace IsReadAs

/-- Operands and powers do not divide. -/
theorem divisors_eq_nil {n : Nat} {d : Derivation Text n} {c : Chain Text} (h : d.IsReadAs c)
    (hn : 3 ≤ n) :
  d.tree.divisors = []
  := by
  have hp : c.numbers.pass 3 = .operand d.tree.number :=
    Chain.passes_eq_operand_of_le (by decide) hn h.passes
  rw [← h.divisors, hp]
  rfl

variable {o : Operator} {l : Derivation Text o.precedence} {r : Derivation Text (o.precedence + 1)}
  {cl cr : Chain Text} (hl : l.IsReadAs cl) (hr : r.IsReadAs cr)

include hl hr

/-- The passes up to that of an operator come to its number. -/
theorem passes_append :
  (cl.append o cr).numbers.passes o.precedence = .operand (o.compute l.tree.number r.tree.number)
  := by
  rw [Chain.passes_eq o.precedence_pos o.precedence_lt, Chain.numbers, Chain.map_append,
    Chain.passes_append (Nat.lt_succ_self _)]
  change ((cl.numbers.passes _).append o (cr.numbers.passes _)).pass _ = _
  rw [hr.passes]
  change Chain.pass _ (.extend (cl.numbers.passes _) o _) = _
  rw [Chain.pass, if_pos rfl, ← Chain.passes_eq o.precedence_pos o.precedence_lt, hl.passes]
  rfl

/-- A division meets the number of its right operand after the divisors of its left operand. -/
theorem divisors_append :
  ((cl.append o cr).numbers.pass 3).divisors = (binary o l r).tree.divisors
  := by
  have hpass (ho : o.precedence ≠ 3) : (cl.append o cr).numbers.pass 3
      = (cl.numbers.pass 3).append o (cr.numbers.pass 3) := by
    rw [Chain.numbers, Chain.map_append, Chain.pass_append ho]
    rfl
  change _ = l.tree.divisors ++ r.tree.divisors ++ _
  cases o with
  | exponentiation =>
    have hp : (cl.append .exponentiation cr).numbers.pass 3 = _ := passes_append hl hr
    rw [hp, hl.divisors_eq_nil (by decide), hr.divisors_eq_nil (by decide)]
    rfl
  | division =>
    have hp : cr.numbers.pass 3 = .operand r.tree.number := hr.passes
    rw [hpass (by decide), hp, hr.divisors_eq_nil (by decide), ← hl.divisors]
    simp [Chain.append, Chain.divisors]
  | addition | subtraction | multiplication =>
    rw [hpass (by decide), Chain.divisors_append (by decide), hl.divisors, hr.divisors]
    simp

/-- An operator between two expressions is read as an operator between two chains. -/
theorem binary :
  (Derivation.binary o l r).IsReadAs (cl.append o cr)
  where
  tokens := by
    rw [Chain.tokens_append, hl.tokens, hr.tokens]
    rfl
  passes := passes_append hl hr
  divisors := divisors_append hl hr

end IsReadAs

/-- An expression without parentheses is read as a chain. -/
theorem exists_isReadAs {n : Nat} (d : Derivation Text n) (h : leftParenthesis ∉ d.tokens) :
  ∃ c, d.IsReadAs c
  := by
  induction d with
  | operand content => exact ⟨.operand content, rfl, rfl, rfl⟩
  | group d ih => simp [tokens] at h
  | @loosen n hn d ih =>
    obtain ⟨c, ht, hp, hd⟩ := ih h
    exact ⟨c, ht, Chain.passes_eq_operand_of_le hn (Nat.le_succ n) hp, hd⟩
  | binary o l r ihl ihr =>
    simp only [tokens, List.mem_append, List.mem_cons, not_or] at h
    obtain ⟨cl, hl⟩ := ihl h.1
    obtain ⟨cr, hr⟩ := ihr h.2.2
    exact ⟨cl.append o cr, hl.binary hr⟩

end Derivation

/-! ### Formulas -/

variable {formula : Text} {values : Variables}

/-- Values bring in no parentheses, so that there are none in the expression of a formula without
any. -/
theorem Formula.not_parenthesis_of_mem_expression (h : ∀ c ∈ formula, c ≠ '(' ∧ c ≠ ')') :
  ∀ c ∈ expression values formula, c ≠ '(' ∧ c ≠ ')'
  := by
  apply substitute_induction (motive := fun u => ∀ c ∈ u, c ≠ '(' ∧ c ≠ ')')
  · intro c hc
    rw [insertProducts_eq] at hc
    obtain hc | rfl := mem_spellProducts hc
    · apply h c (List.mem_of_mem_filter hc)
    · decide
  · intro e _ u hu c hc
    obtain ⟨d, hd, hc⟩ := List.mem_flatMap.mp hc
    split at hc
    · apply not_parenthesis_of_mem_text hc
    · obtain rfl := List.mem_singleton.mp hc
      apply hu c hd

/-- Nor are there any among its tokens. -/
theorem Formula.isParenthesis_of_mem_tokens (h : ∀ c ∈ formula, c ≠ '(' ∧ c ≠ ')') :
  ∀ s ∈ tokens values formula, s.isParenthesis = false
  := by
  intro s hs
  apply eq_false_of_ne_true
  intro hp
  rw [tokens_eq_scan] at hs
  have hc {c : Char} (hc : c ∈ s.content) : c ≠ '(' ∧ c ≠ ')' := by
    have hm := List.mem_flatMap_of_mem hs hc
    rw [flatMap_content_scan] at hm
    apply not_parenthesis_of_mem_expression h c (List.mem_of_mem_filter hm)
  rw [isParenthesis, Bool.or_eq_true, isLeft_iff, isRight_iff] at hp
  obtain rfl | rfl := hp
  · apply (hc (c := '(') List.mem_cons_self).1 rfl
  · apply (hc (c := ')') List.mem_cons_self).2 rfl

/-- No operand stands right before another one in an expression without parentheses. -/
theorem Formula.separated_tokens (h : ∀ c ∈ formula, c ≠ '(' ∧ c ≠ ')') :
  Separated (tokens values formula)
  := by
  apply List.isChain_iff_forall_rel_of_append_cons_cons.mpr
  intro a b us vs ht
  apply eq_false_of_ne_true
  intro hab
  have hp : ∀ s ∈ tokens values formula, s.isLeft = false ∧ s.isRight = false := by
    intro s hs
    simpa [isParenthesis] using isParenthesis_of_mem_tokens h s hs
  have ha := hp a (by simp [ht])
  have hb := hp b (by simp [ht])
  simp only [endsOperand, startsOperand, ha.2, hb.1, Bool.or_false, Bool.and_eq_true] at hab
  rw [tokens_eq_scan] at ht
  obtain ⟨before, gap, after, he, hg, hn⟩ := exists_gap_of_scan_eq ht
  -- what stands between the operands is part of the expression, and so belongs to a token
  obtain ⟨c, cs, rfl⟩ := List.exists_cons_of_ne_nil (hn hab.1 hab.2)
  have hc : isSolid c = true := by
    apply isSolid_of_mem_expression values formula
    simp [he]
  rw [hg c List.mem_cons_self] at hc
  contradiction

/-- A formula whose tokens are a chain is calculated in three passes. -/
theorem calculate_of_tokens_eq {c : Chain Text} (h : tokens values formula = c.tokens) :
  ∃ x, ((c.numbers.pass 3).pass 2).pass 1 = .operand x
    ∧ calculate formula values = if c.numbers.dividesByZero then .error .divisionByZero
      else if x.isFinite then .ok x else .error .notFinite
  := by
  obtain ⟨d, hd⟩ := c.isExpression_tokens
  have hn : leftParenthesis ∉ d.tokens := by
    rw [hd]
    apply c.left_not_mem_tokens
  obtain ⟨c', hc⟩ := d.exists_isReadAs hn
  obtain rfl : c' = c := Chain.tokens_injective (hc.tokens.trans hd)
  refine ⟨d.tree.number, hc.passes, ?_⟩
  have hp : toPostfix (tokens values formula) = .ok d.tree.postorder := by
    rw [h, ← hd, toPostfix_tokens]
  have hz : c'.numbers.dividesByZero = d.tree.dividesByZero := by
    rw [Chain.dividesByZero, hc.divisors, Tree.dividesByZero]
  rw [calculate_eq_of_toPostfix hp, Tree.value_eq, hz]
  cases d.tree.dividesByZero <;> rfl

/-- The tokens of a formula without parentheses that has a value are a chain. -/
theorem HasValue.exists_chain (h : HasValue formula values)
    (hf : ∀ c ∈ formula, c ≠ '(' ∧ c ≠ ')') :
  ∃ c : Chain Text, tokens values formula = c.tokens
  := by
  obtain ⟨p, x, hp, hx⟩ := h.exists_reduce
  obtain ⟨hc, hn⟩ := closes_and_countP_of_reduce hp hx
  have hproper : ∀ s ∈ tokens values formula, s.IsProper := by
    rw [tokens_eq_scan]
    apply isProper_of_mem_scan
  obtain ⟨d, hd⟩ := (isExpression_iff_separated hproper hc hn).mpr (separated_tokens hf)
  have hl : leftParenthesis ∉ d.tokens := by
    intro hl
    rw [hd] at hl
    have hp := isParenthesis_of_mem_tokens hf _ hl
    contradiction
  obtain ⟨c, hc⟩ := d.exists_isReadAs hl
  exact ⟨c, by rw [hc.tokens, hd]⟩

/-- A formula without parentheses has a value exactly when its tokens are a chain and no division
meets a zero. The value is what three passes over the numbers of the chain come to. A chain in which
a division meets a zero is refused for that reason. -/
theorem hasValue_iff_chain (hl : '(' ∉ formula) (hr : ')' ∉ formula) :
  (HasValue formula values
      ↔ ∃ c : Chain Text, tokens values formula = c.tokens ∧ c.numbers.dividesByZero = false)
    ∧ ∀ c : Chain Text, tokens values formula = c.tokens →
      ∃ x, ((c.numbers.pass 3).pass 2).pass 1 = .operand x
        ∧ calculate formula values = if c.numbers.dividesByZero then .error .divisionByZero
          else if x.isFinite then .ok x else .error .notFinite
  := by
  have hf : ∀ c ∈ formula, c ≠ '(' ∧ c ≠ ')' := by
    intro c hc
    constructor <;>
    · rintro rfl
      contradiction
  refine ⟨⟨?_, ?_⟩, fun c => calculate_of_tokens_eq⟩
  · intro h
    obtain ⟨c, hc⟩ := h.exists_chain hf
    obtain ⟨x, -, hx⟩ := calculate_of_tokens_eq hc
    refine ⟨c, hc, eq_false_of_ne_true fun hz => ?_⟩
    rw [HasValue, hx, if_pos hz] at h
    obtain ⟨_, h⟩ | h := h <;> contradiction
  · rintro ⟨c, hc, hz⟩
    obtain ⟨x, -, hx⟩ := calculate_of_tokens_eq hc
    rw [HasValue, hx, hz]
    cases x.isFinite <;> simp

/-- The power is computed first, then the quotient, and at last the difference. -/
theorem hasValue_iff_chain_difference :
  calculate ['8', '/', 'x', '-', '1', '^', '5'] ⟨[('x', 2.0)], by decide⟩ = .ok 3.0
  := by
  let c : Chain Text :=
    .extend (.extend (.extend (.operand ['8']) .division ['2']) .subtraction ['1'])
      .exponentiation ['5']
  have hc : tokens ⟨[('x', 2.0)], by decide⟩ ['8', '/', 'x', '-', '1', '^', '5'] = c.tokens := by
    decide +kernel
  have hv : ((c.numbers.pass 3).pass 2).pass 1 = .operand 3.0 := by
    decide +kernel
  obtain ⟨x, hp, hx⟩ := (hasValue_iff_chain (by decide) (by decide)).2 c hc
  obtain rfl : x = 3.0 := Chain.operand.inj (hp.symm.trans hv)
  rw [hx]
  decide +kernel

end SliderCalculator
