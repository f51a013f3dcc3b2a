import Mathlib.Data.List.Sort
import SliderCalculator.Postfix.Yard
import SliderCalculator.Proofs.Grammar.Alternation
import SliderCalculator.Proofs.TakeWhile

/-!
# Conversion of any tokens

Whatever tokens are converted, they come out exactly when the parentheses are balanced, and then all
tokens other than parentheses do, each once, the operands in their order and every other token after
the operands before it: `IsArrangement`.

The tokens are told apart by their places. What the yard holds is, at any time, an arrangement of
what it has been given, apart from the left parentheses that wait.
-/

namespace SliderCalculator

open Token

namespace Yard

/-- What yields to a token names an operator, so it is no left parenthesis. -/
theorem isLeft_of_yields {t u : Token} (h : yields t u = true) :
  t.isLeft = false
  := by
  by_contra hl
  obtain rfl := isLeft_iff.mp (eq_true_of_ne_false hl)
  simp [yields] at h

/-- Making way for a token opens and closes no group. -/
theorem countP_isLeft_dropWhile_yields (stack : List Token) (t : Token) :
  (stack.dropWhile (yields · t)).countP isLeft = stack.countP isLeft
  := by
  induction stack with
  | nil => rfl
  | cons u stack ih =>
    by_cases hy : yields u t = true
    · simp [hy, isLeft_of_yields hy, ih]
    · simp [hy]

/-- Closing a group leaves one less open. -/
theorem countP_isLeft_closeGroup (stack : List Token) :
  (stack.dropWhile (!·.isLeft)).tail.countP isLeft = stack.countP isLeft - 1
  := by
  induction stack with
  | nil => rfl
  | cons u stack ih => cases hu : u.isLeft <;> simp [hu, ih]

/-- The groups that are open after a token. -/
theorem countP_isLeft_add (y : Yard) (t : Token) :
  (y.add t).stack.countP isLeft
    = if t.isLeft then y.stack.countP isLeft + 1
      else if t.isRight then y.stack.countP isLeft - 1
      else y.stack.countP isLeft
  := by
  rw [add]
  split
  case isTrue ho =>
    obtain ⟨hl, hr⟩ := not_parenthesis_of_isOperand ho
    simp [addOperand, hl, hr]
  case isFalse ho =>
    split
    case isTrue hr =>
      obtain rfl := isRight_iff.mp hr
      simp [closeGroup, countP_isLeft_closeGroup]
    case isFalse hr =>
      cases hl : t.isLeft <;> simp [addOperator, countP_isLeft_dropWhile_yields, hl]

/-- A left parenthesis waits exactly when a group is open. -/
theorem any_isLeft_eq (stack : List Token) :
  stack.any isLeft = (stack.countP isLeft != 0)
  := by
  rw [Bool.eq_iff_iff, List.any_eq_true, bne_iff_ne, ← Nat.pos_iff_ne_zero, List.countP_pos_iff]

/-- A yard takes a token unless it is a right parenthesis while no group is open. -/
theorem add?_bind (y : Yard) (t : Token) (k : Yard → Except Error (List Token)) :
  (y.add? t >>= k)
    = if t.isRight = true ∧ y.stack.countP isLeft = 0 then .error .unbalancedParentheses
      else k (y.add t)
  := by
  rw [add?, accepts, any_isLeft_eq]
  cases t.isRight <;> by_cases h : y.stack.countP isLeft = 0 <;> simp [h, bind, Except.bind]

/-- Reading tokens to the end succeeds exactly when they close the groups that are open. -/
theorem exists_finish_iff (ts : List Token) (y : Yard) :
  (∃ p, (ts.foldlM add? y >>= finish) = .ok p) ↔ closes (y.stack.countP isLeft) ts = true
  := by
  induction ts generalizing y with
  | nil =>
    simp only [List.foldlM_nil, pure_bind, finish, any_isLeft_eq, closes_nil]
    by_cases h : y.stack.countP isLeft = 0 <;> simp [h]
  | cons t ts ih =>
    rw [List.foldlM_cons, bind_assoc, add?_bind, closes]
    split
    case isTrue h =>
      have hl : t.isLeft = false := by
        obtain rfl := isRight_iff.mp h.1
        rfl
      simp [hl, h]
    case isFalse h =>
      rw [ih, countP_isLeft_add]
      cases hl : t.isLeft <;> cases hr : t.isRight <;> simp_all

/-- Reading tokens to the end fails only because parentheses are not balanced. -/
theorem eq_of_finish_eq_error {ts : List Token} {y : Yard} {e : Error}
    (h : (ts.foldlM add? y >>= finish) = .error e) :
  e = .unbalancedParentheses
  := by
  induction ts generalizing y with
  | nil =>
    simp only [List.foldlM_nil, pure_bind, finish] at h
    split at h
    · cases h
      rfl
    · contradiction
  | cons t ts ih =>
    rw [List.foldlM_cons, bind_assoc, add?_bind] at h
    split at h
    · cases h
      rfl
    · apply ih h

end Yard

/-- The conversion succeeds exactly when the parentheses are balanced. -/
theorem exists_toPostfix_iff (ts : List Token) :
  (∃ p, toPostfix ts = .ok p) ↔ closes 0 ts = true
  := Yard.exists_finish_iff ts Yard.empty

/-- The conversion fails only because parentheses are not balanced. -/
theorem eq_of_toPostfix_eq_error {ts : List Token} {e : Error} (h : toPostfix ts = .error e) :
  e = .unbalancedParentheses
  := Yard.eq_of_finish_eq_error h

/-! ### Places -/

namespace Token

/-- Whether a token at a place may come before another one: if that is an operand, it must have come
later already. -/
def MayPrecede (a b : Token × Nat) : Prop :=
  b.1.isOperand = true → a.2 < b.2

/-- The tokens other than parentheses, with their places. -/
def located (ts : List Token) : List (Token × Nat) :=
  ts.zipIdx.filter (!·.1.isParenthesis)

/-- Whether a list consists of the tokens of another one other than parentheses, each of them once,
the operands in the same order, and every other token after the operands before it. The last clause
says so of each single token, which its place tells from others that are equal. -/
structure IsArrangement (ts p : List Token) : Prop where
  isParenthesis_eq : ∀ t ∈ p, t.isParenthesis = false
  perm : p.Perm (ts.filter (!·.isParenthesis))
  operands : p.filter isOperand = ts.filter isOperand
  places : ∃ l : List (Token × Nat),
    l.map Prod.fst = p ∧ l.Perm (located ts) ∧ l.Pairwise MayPrecede

/-- The tokens that are picked, with their places, without the places. -/
theorem map_fst_filter_zipIdx (p : Token → Bool) (ts : List Token) :
  (ts.zipIdx.filter (p ·.1)).map Prod.fst = ts.filter p
  := by
  have h := List.filter_map (f := Prod.fst) (p := p) (l := ts.zipIdx)
  rw [List.zipIdx_map_fst] at h
  rw [h]
  rfl

theorem lt_of_mem_located {ts : List Token} {a : Token × Nat} (h : a ∈ located ts) :
  a.2 < ts.length
  := List.snd_lt_of_mem_zipIdx (List.mem_of_mem_filter h)

theorem located_append_singleton (ts : List Token) (t : Token) :
  located (ts ++ [t]) = located ts ++ [(t, ts.length)].filter (!·.1.isParenthesis)
  := by
  simp [located, List.zipIdx_append]

/-- Places ascend. -/
theorem pairwise_zipIdx (ts : List Token) :
  ts.zipIdx.Pairwise fun a b => a.2 < b.2
  := by
  rw [← List.pairwise_map, List.zipIdx_map_snd]
  exact List.pairwise_lt_range'

/-- Tokens that are not operands may come after any others. -/
theorem pairwise_mayPrecede_append {l waiting : List (Token × Nat)} (hl : l.Pairwise MayPrecede)
    (hw : ∀ a ∈ waiting, a.1.isOperand = false) :
  (l ++ waiting).Pairwise MayPrecede
  := by
  have h : ∀ a, ∀ b ∈ waiting, MayPrecede a b := by
    intro a b hb ho
    rw [hw b hb] at ho
    contradiction
  rw [List.pairwise_append]
  exact ⟨hl, List.pairwise_of_forall_mem_list fun a _ => h a, fun a _ => h a⟩

/-- All clauses follow from what is said of the single tokens. -/
theorem IsArrangement.of_places {ts : List Token} {l : List (Token × Nat)}
    (hp : l.Perm (located ts)) (ho : l.Pairwise MayPrecede) :
  IsArrangement ts (l.map Prod.fst)
  := by
  have hperm : (l.map Prod.fst).Perm (ts.filter (!·.isParenthesis)) := by
    rw [← map_fst_filter_zipIdx]
    apply hp.map
  have hlocated : (located ts).filter (·.1.isOperand) = ts.zipIdx.filter (·.1.isOperand) := by
    rw [located, List.filter_filter]
    apply List.filter_congr
    intro a _
    cases ha : a.1.isOperand with
    | false => rfl
    | true =>
      rw [isParenthesis_of_isOperand ha]
      rfl
  have hascending : (l.filter (·.1.isOperand)).Pairwise fun a b => a.2 < b.2 := by
    apply (ho.filter _).imp_of_mem
    intro a b _ hb hab
    apply hab (List.mem_filter.mp hb).2
  have hoperands : l.filter (·.1.isOperand) = ts.zipIdx.filter (·.1.isOperand) := by
    -- both are in the order of the places
    apply List.Perm.eq_of_pairwise _ hascending ((pairwise_zipIdx ts).filter _)
    · rw [← hlocated]
      apply hp.filter
    · intro a b _ _ hab hba
      omega
  refine ⟨?_, hperm, ?_, l, rfl, hp, ho⟩
  · intro t ht
    simpa using (List.mem_filter.mp (hperm.mem_iff.mp ht)).2
  · rw [List.filter_map, ← map_fst_filter_zipIdx, ← hoperands]
    rfl

end Token

namespace Yard

/-- Whether a yard holds tokens that it has been given: it has placed some of them, and others wait,
none of them operands. Both are listed with their places. -/
structure Holds (y : Yard) (ts : List Token) (l waiting : List (Token × Nat)) : Prop where
  output_eq : y.output = l.map Prod.fst
  stack_eq : y.stack = waiting.map Prod.fst
  isOperand_eq : ∀ a ∈ waiting, a.1.isOperand = false
  perm : (l ++ waiting.filter (!·.1.isLeft)).Perm (located ts)
  pairwise : l.Pairwise MayPrecede

theorem holds_empty :
  Holds empty [] [] []
  := ⟨rfl, rfl, by simp, .nil, .nil⟩

namespace Holds

variable {y : Yard} {t : Token} {ts : List Token} {l waiting : List (Token × Nat)}

/-- An operand is placed after all tokens that have come before it. -/
theorem addOperand (h : Holds y ts l waiting) (ht : t.isOperand = true) :
  Holds (y.addOperand t) (ts ++ [t]) (l ++ [(t, ts.length)]) waiting
  := by
  refine ⟨by simp [Yard.addOperand, h.output_eq], h.stack_eq, h.isOperand_eq, ?_, ?_⟩
  · rw [located_append_singleton, List.filter_singleton, isParenthesis_of_isOperand ht]
    apply List.Perm.trans _ (h.perm.append_right _)
    rw [List.append_assoc, List.append_assoc]
    apply List.perm_append_comm.append_left
  · rw [List.pairwise_append]
    refine ⟨h.pairwise, List.pairwise_singleton _ _, ?_⟩
    rintro a ha _ hb _
    obtain rfl := List.mem_singleton.mp hb
    apply lt_of_mem_located (h.perm.mem_iff.mp (List.mem_append_left _ ha))

/-- Waiting tokens other than left parentheses can be placed. -/
theorem place (h : Holds y ts l waiting) {p : Token → Bool}
    (hp : ∀ t, p t = true → t.isLeft = false) :
  Holds ⟨y.output ++ y.stack.takeWhile p, y.stack.dropWhile p⟩ ts
    (l ++ waiting.takeWhile (p ·.1)) (waiting.dropWhile (p ·.1))
  := by
  constructor
  · rw [h.output_eq, h.stack_eq, List.takeWhile_map, List.map_append]
    rfl
  · rw [h.stack_eq, List.dropWhile_map]
    rfl
  · intro a ha
    apply h.isOperand_eq a ((List.dropWhile_sublist _).mem ha)
  · have hw : (waiting.takeWhile (p ·.1)).filter (!·.1.isLeft) = waiting.takeWhile (p ·.1) := by
      apply List.filter_eq_self.mpr
      intro a ha
      have hpa : p a.1 = true := List.mem_takeWhile_imp (p := fun b : Token × Nat => p b.1) ha
      simp [hp a.1 hpa]
    rw [List.append_assoc, ← hw, ← List.filter_append, List.takeWhile_append_dropWhile]
    apply h.perm
  · apply pairwise_mayPrecede_append h.pairwise
    intro a ha
    apply h.isOperand_eq a ((List.takeWhile_sublist _).mem ha)

/-- A token that is neither an operand nor a right parenthesis waits. -/
theorem wait (h : Holds y ts l waiting) (ho : t.isOperand = false) (hr : t.isRight = false) :
  Holds ⟨y.output, t :: y.stack⟩ (ts ++ [t]) l ((t, ts.length) :: waiting)
  := by
  refine ⟨h.output_eq, by simp [h.stack_eq], List.forall_mem_cons.mpr ⟨ho, h.isOperand_eq⟩, ?_,
    h.pairwise⟩
  rw [located_append_singleton, List.filter_singleton, List.filter_cons, isParenthesis, hr,
    Bool.or_false]
  cases t.isLeft with
  | true => simpa using h.perm
  | false =>
    apply List.Perm.trans _ (h.perm.append_right _)
    apply List.perm_middle.trans (List.perm_append_singleton _ _).symm

/-- A right parenthesis takes away the left one at the top. -/
theorem close (h : Holds y ts l waiting) (hl : ∀ t ∈ y.stack.head?, t.isLeft = true) :
  Holds ⟨y.output, y.stack.tail⟩ (ts ++ [rightParenthesis]) l waiting.tail
  := by
  refine ⟨h.output_eq, by simp [h.stack_eq],
    fun a ha => h.isOperand_eq a (List.mem_of_mem_tail ha), ?_, h.pairwise⟩
  have hw : waiting.tail.filter (!·.1.isLeft) = waiting.filter (!·.1.isLeft) := by
    cases waiting with
    | nil => rfl
    | cons a waiting =>
      have ha := hl a.1 (by simp [h.stack_eq])
      simp [ha]
  rw [hw, located_append_singleton]
  simpa [isParenthesis] using h.perm

/-- A yard that holds tokens holds one more when it is added. -/
theorem add (h : Holds y ts l waiting) (t : Token) :
  ∃ l' waiting', Holds (y.add t) (ts ++ [t]) l' waiting'
  := by
  rw [Yard.add]
  split
  case isTrue ho => exact ⟨_, _, h.addOperand ho⟩
  case isFalse ho =>
    split
    case isTrue hr =>
      obtain rfl := isRight_iff.mp hr
      refine ⟨_, _, (h.place (p := (!·.isLeft)) (by simp)).close ?_⟩
      intro t ht
      simpa using head?_dropWhile t ht
    case isFalse hr =>
      exact ⟨_, _, (h.place (p := (yields · t)) fun _ => isLeft_of_yields).wait
        (eq_false_of_ne_true ho) (eq_false_of_ne_true hr)⟩

/-- A yard that holds tokens holds those that are read then, too. -/
theorem foldlM (h : Holds y ts l waiting) {us : List Token} {z : Yard}
    (hz : us.foldlM add? y = .ok z) :
  ∃ l' waiting', Holds z (ts ++ us) l' waiting'
  := by
  induction us generalizing y ts l waiting with
  | nil =>
    cases hz
    exact ⟨l, waiting, by simpa using h⟩
  | cons u us ih =>
    obtain ⟨l', waiting', h'⟩ := h.add u
    rw [List.foldlM_cons, add?] at hz
    split at hz
    case isTrue =>
      rw [List.append_cons]
      apply ih h' hz
    case isFalse => contradiction

end Holds

end Yard

/-- What a conversion has read when it succeeds. -/
theorem toPostfix_eq_ok_iff {ts p : List Token} :
  toPostfix ts = .ok p
    ↔ ∃ y, ts.foldlM Yard.add? Yard.empty = .ok y ∧ y.stack.any isLeft = false
      ∧ y.output ++ y.stack = p
  := by
  rw [toPostfix]
  cases ts.foldlM Yard.add? Yard.empty with
  | error e => simp [bind, Except.bind]
  | ok y =>
    change y.finish = .ok p ↔ _
    constructor
    · intro h
      rw [Yard.finish] at h
      split at h
      case isTrue => contradiction
      case isFalse hs =>
        cases h
        exact ⟨y, rfl, eq_false_of_ne_true hs, rfl⟩
    · rintro ⟨_, ⟨⟩, hs, rfl⟩
      rw [Yard.finish, hs, if_neg Bool.false_ne_true]

/-- What comes out of a conversion is an arrangement of the tokens. -/
theorem isArrangement_of_toPostfix {ts p : List Token} (h : toPostfix ts = .ok p) :
  IsArrangement ts p
  := by
  obtain ⟨y, hy, hs, rfl⟩ := toPostfix_eq_ok_iff.mp h
  obtain ⟨l, waiting, hh⟩ := Yard.holds_empty.foldlM hy
  have hw : waiting.filter (!·.1.isLeft) = waiting := by
    apply List.filter_eq_self.mpr
    intro a ha
    have hm : a.1 ∈ y.stack := by
      rw [hh.stack_eq]
      apply List.mem_map_of_mem ha
    rw [eq_false_of_ne_true (List.any_eq_false.mp hs a.1 hm)]
    rfl
  have hp := hh.perm
  rw [hw] at hp
  rw [hh.output_eq, hh.stack_eq, ← List.map_append]
  apply IsArrangement.of_places hp (pairwise_mayPrecede_append hh.pairwise hh.isOperand_eq)

/-- The conversion neither loses nor repeats a token other than a parenthesis. -/
theorem perm_toPostfix {ts p : List Token} (h : toPostfix ts = .ok p) :
  p.Perm (ts.filter (!·.isParenthesis))
  := (isArrangement_of_toPostfix h).perm

/-- Tokens of any kinds and texts are refused, for their parentheses, exactly when these are not
balanced. When they are, what comes out is an arrangement of the tokens. -/
theorem toPostfix_isArrangement (ts : List Token) :
  (toPostfix ts = .error .unbalancedParentheses ↔ ¬ IsBalanced ts)
    ∧ (IsBalanced ts ↔ ∃ p, toPostfix ts = .ok p ∧ IsArrangement ts p)
  := by
  rw [← closes_zero_iff, ← exists_toPostfix_iff]
  constructor
  · cases h : toPostfix ts with
    | ok p => simp
    | error e =>
      rw [eq_of_toPostfix_eq_error h]
      simp
  · constructor
    · rintro ⟨p, hp⟩
      exact ⟨p, hp, isArrangement_of_toPostfix hp⟩
    · rintro ⟨p, hp, -⟩
      exact ⟨p, hp⟩

-- kinds and texts that do not fit each other
example :
  toPostfix [operand ['2'], operator ['('], ⟨.operand, [')']⟩, ⟨.punctuation, ['*']⟩, operand ['3'],
      operator ['+'], operand ['4']]
    = .ok [operand ['2'], ⟨.operand, [')']⟩, operand ['3'], ⟨.punctuation, ['*']⟩, operand ['4'],
      operator ['+'], operator ['(']]
  := by decide

end SliderCalculator
