import Mathlib.Data.List.Forall2
import SliderCalculator.Postfix.Evaluation
import SliderCalculator.Proofs.Postfix.Forest

/-!
# Evaluation of trees in postfix order

The evaluation of the postfix order of a tree is the evaluation of the tree, followed by
the check that the result is finite. Conversely, operands and known operators that are
reduced to a single value are the postfix order of a tree.
-/

namespace SliderCalculator

open Token

/-- The number that a tree of texts evaluates to, where each leaf is an operand. -/
def Tree.value (t : Tree Text) : Except Error Float :=
  t.evaluate fun content => operandValue (operand content)

theorem Tree.value_leaf (content : Text) :
  (leaf content).value = .ok (operandValue (operand content))
  := rfl

theorem Tree.value_node (o : Operator) (l r : Tree Text) :
  (node o l r).value = l.value >>= fun x => r.value >>= fun y => o.apply x y
  := rfl

/-! ### Divisors -/

/-- The number that an operator computes. Division by zero does not fail here: it gives an infinity
or no number. -/
def Operator.compute : Operator → Float → Float → Float
  | addition, x, y => x + y
  | subtraction, x, y => x - y
  | multiplication, x, y => x * y
  | division, x, y => x / y
  | exponentiation, x, y => Number.power x y

/-- An operator gives the number that it computes, unless it divides by zero. -/
theorem Operator.apply_eq (o : Operator) (x y : Float) :
  o.apply x y
    = if o = division ∧ (y == 0.0) = true then .error .divisionByZero else .ok (o.compute x y)
  := by
  cases o <;> simp [apply, compute]

namespace Tree

/-- The number of a tree, where divisions by zero do not fail. -/
def number : Tree Text → Float
  | leaf content => operandValue (operand content)
  | node o l r => o.compute l.number r.number

/-- The numbers that a tree divides by, from left to right. -/
def divisors : Tree Text → List Float
  | leaf _ => []
  | node o l r => l.divisors ++ r.divisors ++ if o = .division then [r.number] else []

/-- Whether a tree divides by a zero of either sign. -/
def dividesByZero (t : Tree Text) : Bool :=
  t.divisors.any (· == 0.0)

/-- An operator divides by zero when one of its operands does or the operator itself does. -/
theorem dividesByZero_node (o : Operator) (l r : Tree Text) :
  (node o l r).dividesByZero
    = (l.dividesByZero || r.dividesByZero || (decide (o = .division) && r.number == 0.0))
  := by
  simp only [dividesByZero, divisors, List.any_append]
  by_cases ho : o = .division <;> simp [ho]

/-- The value of a tree is its number, unless the tree divides by zero. -/
theorem value_eq (t : Tree Text) :
  t.value = if t.dividesByZero then .error .divisionByZero else .ok t.number
  := by
  induction t with
  | leaf content => rfl
  | node o l r ihl ihr =>
    rw [value_node, ihl, ihr, dividesByZero_node]
    cases l.dividesByZero with
    | true => rfl
    | false =>
      cases r.dividesByZero with
      | true => rfl
      | false =>
        change o.apply l.number r.number = _
        rw [Operator.apply_eq]
        simp [number]

/-- A tree has a value when it does not divide by zero, and this is its number. -/
theorem value_eq_ok_iff {t : Tree Text} {x : Float} :
  t.value = .ok x ↔ t.dividesByZero = false ∧ t.number = x
  := by
  rw [value_eq]
  cases t.dividesByZero <;> simp

/-- Trees have values when none of them divides by zero, and these are their numbers. -/
theorem forall₂_value_iff {trees : List (Tree Text)} {values : List Float} :
  trees.Forall₂ (fun t x => t.value = .ok x) values
    ↔ (∀ t ∈ trees, t.dividesByZero = false) ∧ trees.map number = values
  := by
  simp only [value_eq_ok_iff]
  induction trees generalizing values with
  | nil => cases values <;> simp
  | cons t trees ih =>
    cases values with
    | nil => simp
    | cons x values =>
      simp only [List.forall₂_cons, ih, List.forall_mem_cons, List.map_cons, List.cons.injEq]
      tauto

end Tree

/-! ### Steps -/

/-- The value of an operand is the newest one. -/
theorem reduce_operand {t : Token} (hk : t.isOperand = true) (values : List Float) :
  reduce values t = .ok (operandValue t :: values)
  := by
  simp [reduce, hk]

/-- An operator takes the two newest values, the newest one as its right operand. -/
theorem reduce_operator {t : Token} {o : Operator} (hk : t.isOperand = false)
    (ho : t.operator? = some o) (x y : Float) (values : List Float) :
  reduce (y :: x :: values) t = (o.apply x y).map (· :: values)
  := by
  simp [reduce, hk, ho]

/-- What a step that succeeds does: it adds the value of an operand, or it replaces the two
newest values by the result of an operator. -/
theorem reduce_eq_ok {values values' : List Float} {t : Token}
    (h : reduce values t = .ok values') :
  (t.isOperand = true ∧ values' = operandValue t :: values)
    ∨ (t.isOperand = false ∧ ∃ o x y z rest, t.operator? = some o ∧ values = y :: x :: rest
      ∧ o.apply x y = .ok z ∧ values' = z :: rest)
  := by
  unfold reduce at h
  split at h
  case isTrue ho =>
    cases h
    exact .inl ⟨ho, rfl⟩
  case isFalse ho =>
    right
    constructor
    · apply eq_false_of_ne_true ho
    · split at h
      next y x rest =>
        split at h
        next o hto =>
          cases ha : o.apply x y with
          | ok z =>
            rw [ha] at h
            cases h
            exact ⟨o, x, y, z, rest, hto, rfl, ha, rfl⟩
          | error e =>
            rw [ha] at h
            contradiction
        · contradiction
      · contradiction

/-- When a step fails, and why: that values are missing is noticed first, and then that the token
names no operator. -/
theorem reduce_eq_error_iff {values : List Float} {t : Token} {e : Error} :
  reduce values t = .error e
    ↔ t.isOperand = false
      ∧ (values.length < 2 ∧ e = .notSingleValue
        ∨ 2 ≤ values.length ∧ t.operator? = none ∧ e = .unknownOperator t.content
        ∨ ∃ y x rest, values = y :: x :: rest ∧ t.operator? = some .division ∧ (y == 0.0) = true
          ∧ e = .divisionByZero)
  := by
  cases hk : t.isOperand with
  | true => simp [reduce_operand hk]
  | false =>
    match values with
    | [] | [x] => simp [reduce, hk, eq_comm (a := e)]
    | y :: x :: rest =>
      cases ho : t.operator? with
      | none => simp [reduce, hk, ho, eq_comm (a := e)]
      | some o =>
        rw [reduce_operator hk ho, Operator.apply_eq]
        by_cases hz : o = .division ∧ (y == 0.0) = true
        · simp [hz, Except.map, eq_comm (a := e)]
        · rw [if_neg hz]
          constructor
          · intro h
            contradiction
          · rintro ⟨-, ⟨h, -⟩ | ⟨-, h, -⟩ | ⟨_, _, _, ⟨⟩, h, hy, -⟩⟩
            · simp only [List.length_cons] at h
              omega
            · contradiction
            · cases h
              exact absurd ⟨rfl, hy⟩ hz

/-- No step asks whether a value is finite. -/
theorem reduce_ne_notFinite (values : List Float) (t : Token) :
  reduce values t ≠ .error .notFinite
  := by
  intro h
  obtain ⟨-, ⟨-, h⟩ | ⟨-, -, h⟩ | ⟨_, _, _, -, -, -, h⟩⟩ := reduce_eq_error_iff.mp h <;>
    contradiction

/-- Each operand adds a value, and each other token takes one away. -/
theorem length_reduce {values values' : List Float} {t : Token}
    (h : reduce values t = .ok values') :
  values'.length + (if t.isOperand then 0 else 1)
    = values.length + (if t.isOperand then 1 else 0)
  := by
  obtain ⟨ho, rfl⟩ | ⟨ho, o, x, y, z, rest, -, rfl, -, rfl⟩ := reduce_eq_ok h
  · simp [ho]
  · simp [ho]

/-! ### Runs -/

/-- Reducing a tree in postfix order leaves the value of the tree. -/
theorem Tree.IsPostfix.foldlM_reduce {t : Tree Text} {ts : List Token} (h : t.IsPostfix ts)
    (values : List Float) :
  ts.foldlM reduce values = t.value.map (· :: values)
  := by
  induction h generalizing values with
  | @leaf t hk =>
    rw [List.foldlM_cons, reduce_operand hk]
    rfl
  | @node o l r us vs s _ _ hk hs ihl ihr =>
    rw [List.foldlM_append, List.foldlM_append, ihl, Tree.value_node]
    cases l.value with
    | error e => rfl
    | ok x =>
      change (vs.foldlM reduce (x :: values) >>= _) = _
      rw [ihr]
      cases r.value with
      | error e => rfl
      | ok y =>
        change ([s].foldlM reduce (y :: x :: values)) = (o.apply x y).map _
        rw [List.foldlM_cons, reduce_operator hk (operator?_iff.mpr hs)]
        cases o.apply x y <;> rfl

/-- The evaluation of the postfix order of a tree is the evaluation of the tree. -/
theorem evaluate_postorder (t : Tree Text) :
  evaluate t.postorder = t.value >>= fun x => singleValue [x]
  := by
  rw [evaluate, t.isPostfix_postorder.foldlM_reduce]
  cases t.value <;> rfl

/-- No run asks whether a value is finite. -/
theorem foldlM_reduce_ne_notFinite (ts : List Token) (values : List Float) :
  ts.foldlM reduce values ≠ .error .notFinite
  := by
  induction ts generalizing values with
  | nil => simp [pure, Except.pure]
  | cons t ts ih =>
    rw [List.foldlM_cons]
    cases h : reduce values t with
    | ok values' => apply ih values'
    | error e =>
      intro he
      cases he
      apply reduce_ne_notFinite values t h

/-- Tokens reduce to a single value exactly when their evaluation gives a number or finds
the value not finite. -/
theorem foldlM_reduce_eq_single_iff (ts : List Token) :
  (∃ x, ts.foldlM reduce [] = .ok [x])
    ↔ (∃ x, evaluate ts = .ok x) ∨ evaluate ts = .error .notFinite
  := by
  rw [evaluate]
  cases h : ts.foldlM reduce [] with
  | error e =>
    have hne : e ≠ .notFinite := by
      rintro rfl
      apply foldlM_reduce_ne_notFinite ts [] h
    simp [bind, Except.bind, hne]
  | ok values =>
    simp only [bind, Except.bind, Except.ok.injEq]
    match values with
    | [] => simp [singleValue]
    | [x] => cases hx : x.isFinite <;> simp [singleValue, hx]
    | x :: y :: values => simp [singleValue]

/-- A run of operands and known operators fails because values are missing or a divisor is zero. -/
theorem foldlM_reduce_eq_error {ts : List Token}
    (hts : ∀ t ∈ ts, t.IsProper ∧ t.isParenthesis = false)
    {values : List Float} {e : Error} (h : ts.foldlM reduce values = .error e) :
  e = .notSingleValue ∨ e = .divisionByZero
  := by
  induction ts generalizing values with
  | nil => contradiction
  | cons t ts ih =>
    obtain ⟨ht, hts⟩ := List.forall_mem_cons.mp hts
    rw [List.foldlM_cons] at h
    cases hr : reduce values t with
    | ok values' =>
      rw [hr] at h
      apply ih hts h
    | error e' =>
      rw [hr] at h
      cases h
      obtain ⟨hk, ⟨-, h⟩ | ⟨-, hn, -⟩ | ⟨_, _, _, -, -, -, h⟩⟩ := reduce_eq_error_iff.mp hr
      · exact .inl h
      · -- a proper token that is neither an operand nor a parenthesis names an operator
        obtain ⟨hp, hq⟩ := ht
        cases hp with
        | operator o => simp at hn
        | operand | left | right => contradiction
      · exact .inr h

/-- Operands and known operators are evaluated to a finite number, or it is missing values, a zero
divisor or the value that keep them from it. -/
theorem evaluate_cases {ts : List Token} (hts : ∀ t ∈ ts, t.IsProper ∧ t.isParenthesis = false) :
  (∃ x, evaluate ts = .ok x ∧ x.isFinite = true) ∨ evaluate ts = .error .divisionByZero
    ∨ evaluate ts = .error .notSingleValue ∨ evaluate ts = .error .notFinite
  := by
  rw [evaluate]
  cases h : ts.foldlM reduce [] with
  | error e =>
    obtain rfl | rfl := foldlM_reduce_eq_error hts h
    · exact .inr (.inr (.inl rfl))
    · exact .inr (.inl rfl)
  | ok values =>
    change (∃ x, singleValue values = .ok x ∧ _) ∨ singleValue values = _
      ∨ singleValue values = _ ∨ singleValue values = _
    match values with
    | [] | _ :: _ :: _ => exact .inr (.inr (.inl rfl))
    | [x] =>
      cases hx : x.isFinite with
      | true => exact .inl ⟨x, by rw [singleValue, if_pos hx], hx⟩
      | false => exact .inr (.inr (.inr (by rw [singleValue, hx, if_neg Bool.false_ne_true])))

/-- The number of values that a run leaves. -/
theorem length_foldlM_reduce {ts : List Token} {values values' : List Float}
    (h : ts.foldlM reduce values = .ok values') :
  values'.length + ts.countP (!·.isOperand) = values.length + ts.countP isOperand
  := by
  induction ts generalizing values with
  | nil =>
    cases h
    rfl
  | cons t ts ih =>
    rw [List.foldlM_cons] at h
    cases ht : reduce values t with
    | error e =>
      rw [ht] at h
      contradiction
    | ok values₁ =>
      rw [ht] at h
      have h₁ := ih h
      have h₂ := length_reduce ht
      cases ho : t.isOperand <;> simp [ho] at h₂ ⊢ <;> omega

/-! ### Trees -/

/-- What a token does to values that are those of trees: it is an operand or makes one tree of the
two newest, and the values after it are those of the trees then. -/
theorem exists_trees_of_reduce {t : Token} {values values' : List Float}
    (h : reduce values t = .ok values') {trees : List (Tree Text)} {us : List Token}
    (hus : Tree.ArePostfix trees us) (hv : trees.Forall₂ (fun t x => t.value = .ok x) values) :
  ∃ trees', Tree.ArePostfix trees' (us ++ [t])
    ∧ List.Forall₂ (fun t x => t.value = .ok x) trees' values'
  := by
  obtain ⟨ho, rfl⟩ | ⟨hk, o, x, y, z, rest, ho, rfl, ha, rfl⟩ := reduce_eq_ok h
  · exact ⟨_, .cons hus (.leaf ho), .cons (Tree.value_leaf t.content) hv⟩
  · cases hv with
    | @cons r _ _ _ hry hv =>
      cases hv with
      | @cons l _ trees _ hlx hv =>
        have hz : (Tree.node o l r).value = .ok z := by
          rw [Tree.value_node, hlx, hry]
          apply ha
        cases hus with
        | @cons _ _ us vs hus hr =>
          cases hus with
          | @cons _ _ us ws hus hl =>
            refine ⟨.node o l r :: trees, ?_, .cons hz hv⟩
            have hn := hus.cons (.node hl hr hk (operator?_iff.mp ho))
            simpa using hn

/-- Tokens that are reduced without a failure are trees in postfix order, and the values that are
left are theirs. -/
theorem exists_trees_of_foldlM_reduce {ts : List Token} {values values' : List Float}
    (h : ts.foldlM reduce values = .ok values') {trees : List (Tree Text)} {us : List Token}
    (hus : Tree.ArePostfix trees us) (hv : trees.Forall₂ (fun t x => t.value = .ok x) values) :
  ∃ trees', Tree.ArePostfix trees' (us ++ ts)
    ∧ List.Forall₂ (fun t x => t.value = .ok x) trees' values'
  := by
  induction ts generalizing values trees us with
  | nil =>
    cases h
    exact ⟨trees, by simpa using hus, hv⟩
  | cons t ts ih =>
    rw [List.foldlM_cons] at h
    cases hr : reduce values t with
    | error e =>
      rw [hr] at h
      contradiction
    | ok values₁ =>
      rw [hr] at h
      obtain ⟨trees₁, hus₁, hv₁⟩ := exists_trees_of_reduce hr hus hv
      rw [List.append_cons]
      apply ih h hus₁ hv₁

/-- Operands and known operators that are reduced to a single value are the postfix order
of a tree with that value. -/
theorem exists_tree_of_foldlM_reduce {ts : List Token}
    (hts : ∀ t ∈ ts, t.IsProper ∧ t.isParenthesis = false) {x : Float}
    (h : ts.foldlM reduce [] = .ok [x]) :
  ∃ t : Tree Text, ts = t.postorder ∧ t.value = .ok x
  := by
  obtain ⟨trees, hs, hv⟩ := exists_trees_of_foldlM_reduce h .nil .nil
  cases hv with
  | @cons t _ _ _ hx hv =>
    cases hv
    cases hs with
    | cons hs ht =>
      cases hs
      exact ⟨t, ht.eq_postorder fun s hs => (hts s hs).1, hx⟩

end SliderCalculator
