import SliderCalculator.Proofs.Postfix.Arrangement
import SliderCalculator.Proofs.Postfix.Conversion
import SliderCalculator.Proofs.TakeWhile

/-!
# Groups

What waits under a left parenthesis is neither looked at nor moved while the tokens after it are
read, and these come out as if nothing stood before them. So a group counts as an operand, whatever
stands around it: `toPostfix_group`.
-/

namespace SliderCalculator

open Token

namespace Token

/-- The tokens of a group: others in parentheses. -/
def group (ts : List Token) : List Token :=
  leftParenthesis :: ts ++ [rightParenthesis]

/-- Tokens with others in the place of each occurrence of one. -/
def replace (x : Token) (p ts : List Token) : List Token :=
  ts.flatMap fun t => if t = x then p else [t]

variable {x : Token} {p ts us : List Token}

/-- Tokens are kept where the one to replace is not among them. -/
theorem replace_of_not_mem (h : x ∉ ts) :
  replace x p ts = ts
  := by
  calc replace x p ts
    _ = ts.flatMap fun t => [t] :=
      List.flatMap_congr fun t ht => if_neg (ne_of_mem_of_not_mem ht h)
    _ = ts := List.flatMap_singleton' ts

/-- One occurrence is replaced. -/
theorem replace_append_cons (hts : x ∉ ts) (hus : x ∉ us) :
  replace x p (ts ++ x :: us) = ts ++ p ++ us
  := by
  have h : replace x p (ts ++ x :: us) = replace x p ts ++ p ++ replace x p us := by
    simp [replace]
  rw [h, replace_of_not_mem hts, replace_of_not_mem hus]

end Token

/-! ### Above a left parenthesis -/

namespace Yard

/-- A yard with tokens before those that are placed and under those that wait. -/
def above (y : Yard) (output stack : List Token) : Yard :=
  ⟨output ++ y.output, y.stack ++ stack⟩

variable {y z : Yard} {t : Token} {ts output stack : List Token}

theorem accepts_above (output stack : List Token) (h : y.accepts t = true) :
  (y.above output stack).accepts t = true
  := by
  simp only [accepts, above, List.any_append, Bool.or_eq_true] at h ⊢
  tauto

/-- What has been placed does not matter for what is accepted. -/
theorem accepts_above_nil (output : List Token) :
  (y.above output []).accepts t = y.accepts t
  := by
  rw [accepts, accepts, above, List.append_nil]

/-- A token that is accepted does not reach what waits under a left parenthesis. -/
theorem add_above (hs : ∀ u ∈ stack.head?, u.isLeft = true) (h : y.accepts t = true) :
  (y.above output stack).add t = (y.add t).above output stack
  := by
  rw [add, add]
  split
  case isTrue => simp [addOperand, above]
  case isFalse =>
    split
    case isTrue hr =>
      have hn : ∀ u ∈ stack.head?, (!u.isLeft) = false := by
        intro u hu
        rw [hs u hu, Bool.not_true]
      obtain ⟨htake, hdrop⟩ := takeWhile_dropWhile_append y.stack hn
      -- the left parenthesis that the token closes is above the stack
      have hl : y.stack.dropWhile (!·.isLeft) ≠ [] := by
        rw [accepts, hr, Bool.not_true, Bool.false_or, List.any_eq_true] at h
        obtain ⟨u, hu, hul⟩ := h
        intro hn
        have hn := List.dropWhile_eq_nil_iff.mp hn u hu
        rw [hul] at hn
        contradiction
      simp [closeGroup, above, htake, hdrop, List.tail_append_of_ne_nil hl]
    case isFalse =>
      have hy : ∀ u ∈ stack.head?, yields u t = false := by
        intro u hu
        apply eq_false_of_ne_true
        intro hy
        have hl := isLeft_of_yields hy
        rw [hs u hu] at hl
        contradiction
      obtain ⟨htake, hdrop⟩ := takeWhile_dropWhile_append y.stack hy
      simp [addOperator, above, htake, hdrop]

/-- Reading tokens that are accepted does not reach what waits under a left parenthesis. -/
theorem foldlM_above (output stack : List Token) (hs : ∀ u ∈ stack.head?, u.isLeft = true)
    (h : ts.foldlM add? y = .ok z) :
  ts.foldlM add? (y.above output stack) = .ok (z.above output stack)
  := by
  induction ts generalizing y with
  | nil =>
    cases h
    rfl
  | cons t ts ih =>
    rw [List.foldlM_cons, add?] at h
    split at h
    case isTrue ha =>
      rw [List.foldlM_cons, add?, if_pos (accepts_above output stack ha), add_above hs ha]
      apply ih h
    case isFalse => contradiction

/-- What has been placed stays in front of what comes out, and changes nothing else. -/
theorem finish_above (output ts : List Token) (y : Yard) :
  (ts.foldlM add? (y.above output []) >>= finish)
    = (ts.foldlM add? y >>= finish).map (output ++ ·)
  := by
  induction ts generalizing y with
  | nil =>
    change (y.above output []).finish = y.finish.map (output ++ ·)
    rw [finish, finish, above, List.append_nil]
    split
    · rfl
    · simp [Except.map]
  | cons t ts ih =>
    rw [List.foldlM_cons, List.foldlM_cons, add?, add?]
    cases ha : y.accepts t with
    | true =>
      rw [if_pos (accepts_above output [] ha), add_above (by simp) ha]
      apply ih
    | false =>
      rw [accepts_above_nil, ha]
      rfl

/-- A group is read as an operand that comes out as its tokens do. -/
theorem foldlM_group {p : List Token} (h : toPostfix ts = .ok p) (y : Yard) :
  (group ts).foldlM add? y = .ok ⟨y.output ++ p, y.stack⟩
  := by
  obtain ⟨z, hz, hl, rfl⟩ := toPostfix_eq_ok_iff.mp h
  have hwaiting : ∀ t ∈ z.stack, t.isLeft = false :=
    fun t ht => eq_false_of_ne_true (List.any_eq_false.mp hl t ht)
  have hread := foldlM_above y.output (leftParenthesis :: y.stack) (by simp) hz
  have hempty : empty.above y.output (leftParenthesis :: y.stack)
      = ⟨y.output, leftParenthesis :: y.stack⟩ := by
    simp [empty, above]
  rw [hempty] at hread
  rw [group, List.cons_append, foldlM_cons_of_eq_ok (add?_left _ _), foldlM_append_of_eq_ok hread,
    above, foldlM_cons_of_eq_ok (add?_right _ _ hwaiting), List.append_assoc]
  rfl

/-- An operand is read so, too. -/
theorem foldlM_operand {x : Token} (hx : x.isOperand = true) (y : Yard) :
  [x].foldlM add? y = .ok ⟨y.output ++ [x], y.stack⟩
  := by
  have hr := (not_parenthesis_of_isOperand hx).2
  rw [List.foldlM_cons, add?, accepts, add, hr, if_pos hx]
  rfl

end Yard

/-! ### Around a group -/

variable {ts us p pre post : List Token}

/-- What comes out when tokens in the middle are read like an operand that comes out as others. -/
theorem toPostfix_append {y : Yard} (hy : pre.foldlM Yard.add? Yard.empty = .ok y)
    (hus : us.foldlM Yard.add? y = .ok ⟨y.output ++ p, y.stack⟩) (post : List Token) :
  toPostfix (pre ++ us ++ post)
    = (post.foldlM Yard.add? ⟨[], y.stack⟩ >>= Yard.finish).map (y.output ++ p ++ ·)
  := by
  rw [toPostfix, List.append_assoc, Yard.foldlM_append_of_eq_ok hy,
    Yard.foldlM_append_of_eq_ok hus, ← Yard.finish_above, Yard.above, List.append_nil,
    List.append_nil]

/-- A group of its own comes out as its tokens do. -/
theorem toPostfix_group_self (h : toPostfix ts = .ok p) :
  toPostfix (group ts) = .ok p
  := by
  rw [toPostfix, Yard.foldlM_group h]
  simp [Yard.finish, Yard.empty, bind, Except.bind]

/-- The one occurrence of an operand stands between what comes out before and after it. -/
theorem not_mem_of_toPostfix {x : Token} {o r : List Token} (hx : x.isOperand = true)
    (hpre : x ∉ pre) (hpost : x ∉ post) (h : toPostfix (pre ++ [x] ++ post) = .ok (o ++ [x] ++ r)) :
  x ∉ o ∧ x ∉ r
  := by
  have hc := (perm_toPostfix h).count_eq x
  rw [List.count_filter (by rw [isParenthesis_of_isOperand hx]; rfl)] at hc
  simp only [List.count_append, List.count_singleton_self, List.count_eq_zero_of_not_mem hpre,
    List.count_eq_zero_of_not_mem hpost] at hc
  rw [← List.count_eq_zero, ← List.count_eq_zero]
  omega

/-- A group of tokens that can be converted counts as an operand, whatever stands around it: what
comes out, or the failure, is the same with an operand in its place, but for the tokens of the group
in the place of the operand. In particular parentheses around all tokens change nothing, however
often they are put. -/
theorem toPostfix_group (h : toPostfix ts = .ok p) :
  (∀ (pre post : List Token) (x : Token), x.isOperand = true → x ∉ pre → x ∉ post →
      toPostfix (pre ++ group ts ++ post) = (toPostfix (pre ++ [x] ++ post)).map (replace x p))
    ∧ ∀ n, toPostfix (group^[n] ts) = .ok p
  := by
  constructor
  · intro pre post x hx hpre hpost
    cases hy : pre.foldlM Yard.add? Yard.empty with
    | error e =>
      have he (us : List Token) : toPostfix (pre ++ us ++ post) = .error e := by
        rw [toPostfix, List.append_assoc, List.foldlM_append, hy]
        rfl
      rw [he, he]
      rfl
    | ok y =>
      have hoperand := toPostfix_append hy (Yard.foldlM_operand hx y) post
      rw [toPostfix_append hy (Yard.foldlM_group h y), hoperand]
      cases hr : post.foldlM Yard.add? ⟨[], y.stack⟩ >>= Yard.finish with
      | error e => rfl
      | ok r =>
        rw [hr] at hoperand
        obtain ⟨ho, hr⟩ := not_mem_of_toPostfix hx hpre hpost hoperand
        simp [Except.map, replace_append_cons ho hr]
  · intro n
    induction n with
    | zero => apply h
    | succ n ih =>
      rw [Function.iterate_succ_apply']
      apply toPostfix_group_self ih

/-- A sum in two pairs of parentheses, between tokens that are no expression. -/
theorem toPostfix_group_sum :
  toPostfix ([operand ['4'], operator ['*'], leftParenthesis]
      ++ group [operand ['2'], operator ['+'], operand ['3']]
      ++ [rightParenthesis, operator ['^']])
    = .ok [operand ['4'], operand ['2'], operand ['3'], operator ['+'], operator ['^'],
        operator ['*']]
  := by
  have hp : toPostfix [operand ['2'], operator ['+'], operand ['3']]
      = .ok [operand ['2'], operand ['3'], operator ['+']] := by
    decide
  rw [(toPostfix_group hp).1 _ _ (operand ['x']) rfl (by decide) (by decide)]
  decide

end SliderCalculator
