import SliderCalculator.Proofs.Postfix.Reduction

/-!
# What evaluation accepts

Tokens of any kinds and texts are evaluated to a value exactly when they are one tree in postfix
order that does not divide by zero. `EvaluatesTo` says what comes of all tokens: those without a
value are several trees or none up to some token, and the number of these trees and what the token
names tell the error. The main statement is `evaluate_iff`.
-/

namespace SliderCalculator

open Token

/-! ### Runs -/

/-- Trees in postfix order that do not divide by zero leave their numbers. -/
theorem Tree.ArePostfix.foldlM_reduce {trees : List (Tree Text)} {ts : List Token}
    (h : ArePostfix trees ts) (hd : ∀ t ∈ trees, t.dividesByZero = false) :
  ts.foldlM reduce [] = .ok (trees.map number)
  := by
  induction h with
  | nil => rfl
  | @cons t trees us vs _ ht ih =>
    obtain ⟨hdt, hd⟩ := List.forall_mem_cons.mp hd
    have hv : t.value = .ok t.number := value_eq_ok_iff.mpr ⟨hdt, rfl⟩
    rw [List.foldlM_append, ih hd]
    change vs.foldlM reduce _ = _
    rw [ht.foldlM_reduce, hv]
    rfl

/-- Tokens that are reduced without a failure are such trees. -/
theorem exists_arePostfix {ts : List Token} {values : List Float}
    (h : ts.foldlM reduce [] = .ok values) :
  ∃ trees, Tree.ArePostfix trees ts ∧ (∀ t ∈ trees, t.dividesByZero = false)
    ∧ trees.map Tree.number = values
  := by
  obtain ⟨trees, hts, hv⟩ := exists_trees_of_foldlM_reduce h .nil .nil
  exact ⟨trees, hts, Tree.forall₂_value_iff.mp hv⟩

/-- A run that fails has a first token that cannot be reduced. -/
theorem exists_of_foldlM_reduce_eq_error {ts : List Token} {values : List Float} {e : Error}
    (h : ts.foldlM reduce values = .error e) :
  ∃ us s vs values', ts = us ++ s :: vs ∧ us.foldlM reduce values = .ok values'
    ∧ reduce values' s = .error e
  := by
  induction ts generalizing values with
  | nil => contradiction
  | cons t ts ih =>
    rw [List.foldlM_cons] at h
    cases ht : reduce values t with
    | error e' =>
      rw [ht] at h
      cases h
      exact ⟨[], t, ts, values, rfl, rfl, ht⟩
    | ok values₁ =>
      rw [ht] at h
      obtain ⟨us, s, vs, values', rfl, hus, hs⟩ := ih h
      refine ⟨t :: us, s, vs, values', rfl, ?_, hs⟩
      rw [List.foldlM_cons, ht]
      apply hus

/-- A run fails with its first token that cannot be reduced, whatever comes after it. -/
theorem foldlM_reduce_eq_error_of {us : List Token} {s : Token} {values values' : List Float}
    {e : Error} (hus : us.foldlM reduce values = .ok values') (hs : reduce values' s = .error e)
    (vs : List Token) :
  (us ++ s :: vs).foldlM reduce values = .error e
  := by
  rw [List.foldlM_append, hus]
  change (s :: vs).foldlM reduce values' = _
  rw [List.foldlM_cons, hs]
  rfl

/-! ### Outcomes -/

/-- What tokens evaluate to. Either they are trees in postfix order that do not divide by zero, and
there must be one; or they are so up to a token that is no operand and cannot be reduced. -/
inductive EvaluatesTo (ts : List Token) : Except Error Float → Prop where
  /-- One tree has a value, which must be finite. -/
  | value {t : Tree Text} (ht : t.IsPostfix ts) (hd : t.dividesByZero = false) :
      EvaluatesTo ts (if t.number.isFinite then .ok t.number else .error .notFinite)
  /-- There are no trees, or several. -/
  | notSingle {trees : List (Tree Text)} (hts : Tree.ArePostfix trees ts)
      (hd : ∀ t ∈ trees, t.dividesByZero = false) (hn : trees.length ≠ 1) :
      EvaluatesTo ts (.error .notSingleValue)
  /-- An operator, known or not, lacks an operand. -/
  | missing {trees : List (Tree Text)} {us vs : List Token} {s : Token} (hts : ts = us ++ s :: vs)
      (hus : Tree.ArePostfix trees us) (hd : ∀ t ∈ trees, t.dividesByZero = false)
      (hk : s.isOperand = false) (hn : trees.length < 2) :
      EvaluatesTo ts (.error .notSingleValue)
  /-- An operator is not known, and has its operands. -/
  | unknown {trees : List (Tree Text)} {us vs : List Token} {s : Token} (hts : ts = us ++ s :: vs)
      (hus : Tree.ArePostfix trees us) (hd : ∀ t ∈ trees, t.dividesByZero = false)
      (hk : s.isOperand = false) (hn : 2 ≤ trees.length) (ho : s.operator? = none) :
      EvaluatesTo ts (.error (.unknownOperator s.content))
  /-- The right operand of a division is zero. -/
  | divisionByZero {l r : Tree Text} {trees : List (Tree Text)} {us vs : List Token} {s : Token}
      (hts : ts = us ++ s :: vs) (hus : Tree.ArePostfix (r :: l :: trees) us)
      (hd : ∀ t ∈ r :: l :: trees, t.dividesByZero = false) (hk : s.isOperand = false)
      (ho : s.operator? = some .division) (hz : (r.number == 0.0) = true) :
      EvaluatesTo ts (.error .divisionByZero)

variable {ts : List Token}

/-- Tokens whose run fails evaluate to the error of the first token that cannot be reduced. -/
theorem EvaluatesTo.of_eq_error {e : Error} (h : ts.foldlM reduce [] = .error e) :
  EvaluatesTo ts (.error e)
  := by
  obtain ⟨us, s, vs, values, hts, hrun, hs⟩ := exists_of_foldlM_reduce_eq_error h
  obtain ⟨trees, hus, hd, rfl⟩ := exists_arePostfix hrun
  obtain ⟨hk, hs⟩ := reduce_eq_error_iff.mp hs
  rw [List.length_map] at hs
  obtain ⟨hn, rfl⟩ | ⟨hn, ho, rfl⟩ | ⟨y, x, rest, hv, ho, hz, rfl⟩ := hs
  · exact .missing hts hus hd hk hn
  · exact .unknown hts hus hd hk hn ho
  · obtain ⟨r, trees₁, rfl, rfl, hv₁⟩ := List.map_eq_cons_iff.mp hv
    obtain ⟨l, trees₂, rfl, -, -⟩ := List.map_eq_cons_iff.mp hv₁
    exact .divisionByZero hts hus hd hk ho hz

/-- All tokens evaluate to something. -/
theorem evaluatesTo_evaluate (ts : List Token) :
  EvaluatesTo ts (evaluate ts)
  := by
  rw [evaluate]
  cases h : ts.foldlM reduce [] with
  | error e => apply EvaluatesTo.of_eq_error h
  | ok values =>
    obtain ⟨trees, hts, hd, rfl⟩ := exists_arePostfix h
    change EvaluatesTo ts (singleValue (trees.map Tree.number))
    cases hts with
    | nil => exact .notSingle .nil hd (by simp)
    | @cons t trees us vs hs ht =>
      cases trees with
      | nil =>
        cases hs
        exact .value ht (hd t List.mem_cons_self)
      | cons l trees => exact .notSingle (hs.cons ht) hd (by simp)

/-- They evaluate to nothing else. -/
theorem EvaluatesTo.evaluate_eq {r : Except Error Float} (h : EvaluatesTo ts r) :
  evaluate ts = r
  := by
  rw [evaluate]
  cases h with
  | @value t ht hd =>
    have hv := ht.arePostfix.foldlM_reduce (List.forall_mem_singleton.mpr hd)
    rw [hv]
    rfl
  | @notSingle trees hts hd hn =>
    rw [hts.foldlM_reduce hd]
    cases trees with
    | nil => rfl
    | cons t trees =>
      cases trees with
      | nil => contradiction
      | cons l trees => rfl
  | @missing trees us vs s hts hus hd hk hn =>
    have hs : reduce (trees.map Tree.number) s = .error .notSingleValue :=
      reduce_eq_error_iff.mpr ⟨hk, .inl ⟨by simpa using hn, rfl⟩⟩
    rw [hts, foldlM_reduce_eq_error_of (hus.foldlM_reduce hd) hs]
    rfl
  | @unknown trees us vs s hts hus hd hk hn ho =>
    have hs : reduce (trees.map Tree.number) s = .error (.unknownOperator s.content) :=
      reduce_eq_error_iff.mpr ⟨hk, .inr (.inl ⟨by simpa using hn, ho, rfl⟩)⟩
    rw [hts, foldlM_reduce_eq_error_of (hus.foldlM_reduce hd) hs]
    rfl
  | @divisionByZero l r trees us vs s hts hus hd hk ho hz =>
    have hs : reduce ((r :: l :: trees).map Tree.number) s = .error .divisionByZero :=
      reduce_eq_error_iff.mpr ⟨hk, .inr (.inr ⟨_, _, _, rfl, ho, hz, rfl⟩)⟩
    rw [hts, foldlM_reduce_eq_error_of (hus.foldlM_reduce hd) hs]
    rfl

/-- Tokens of any kinds and texts are evaluated to a value, finite or not, exactly when they are the
postfix order of a tree that does not divide by zero, and they are so for one tree at most. What
they are evaluated to is in all cases told by the trees that they are up to the first token that
cannot be reduced. -/
theorem evaluate_iff (ts : List Token) :
  ((∃ x, evaluate ts = .ok x) ∨ evaluate ts = .error .notFinite
      ↔ ∃ t : Tree Text, t.IsPostfix ts ∧ t.dividesByZero = false)
    ∧ (∀ t u : Tree Text, t.IsPostfix ts → u.IsPostfix ts → t = u)
    ∧ ∀ r, evaluate ts = r ↔ EvaluatesTo ts r
  := by
  refine ⟨?_, fun _ _ => Tree.IsPostfix.unique, fun r => ⟨?_, EvaluatesTo.evaluate_eq⟩⟩
  · constructor
    · intro h
      generalize hr : evaluate ts = r at h
      have he := evaluatesTo_evaluate ts
      rw [hr] at he
      cases he with
      | value ht hd => exact ⟨_, ht, hd⟩
      | notSingle | missing | unknown | divisionByZero => simp at h
    · rintro ⟨t, ht, hd⟩
      rw [(EvaluatesTo.value ht hd).evaluate_eq]
      cases t.number.isFinite <;> simp
  · rintro rfl
    apply evaluatesTo_evaluate

-- a token that is no operand is taken by its text, whatever its kind
example :
  evaluate [operand ['1'], operand ['2'], ⟨.punctuation, ['+']⟩] = .ok 3.0
    ∧ evaluate [operand ['1'], operand ['2'], rightParenthesis] = .error (.unknownOperator [')'])
  := by
  decide +kernel

end SliderCalculator
