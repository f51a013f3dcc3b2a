import SliderCalculator.Proofs.Postfix.Group

/-!
# After a failure

A yard may be used on after a token that it has refused. It refuses a right parenthesis that closes
no group, and such a token ends a segment of the tokens: what comes out at the end is what comes out
of the segments one after the other, and all but the last one can be converted. The main statement
is `finish_foldl_add`.
-/

namespace SliderCalculator

open Token

namespace Token

/-- Whether a left parenthesis among tokens has not been closed by those after it: none of their
prefixes closes more groups than it opens. -/
def HasOpenGroup (ts : List Token) : Prop :=
  ∃ us vs, ts = us ++ leftParenthesis :: vs
    ∧ ∀ ws, ws <+: vs → ws.countP isRight ≤ ws.countP isLeft

/-- Whether a token is a right parenthesis without a partner among the tokens before it. -/
def IsStray (before : List Token) (t : Token) : Prop :=
  t = rightParenthesis ∧ ¬ HasOpenGroup before

/-- Whether tokens are cut at their stray right parentheses into segments and what comes after the
last of these parentheses. -/
inductive IsCutInto : List Token → List (List Token) → List Token → Prop where
  | nil : IsCutInto [] [] []
  | keep {ts last : List Token} {segments : List (List Token)} {t : Token}
      (h : IsCutInto ts segments last) (ht : ¬ IsStray ts t) :
      IsCutInto (ts ++ [t]) segments (last ++ [t])
  | cut {ts last : List Token} {segments : List (List Token)} {t : Token}
      (h : IsCutInto ts segments last) (ht : IsStray ts t) :
      IsCutInto (ts ++ [t]) (segments ++ [last]) []

/-- All tokens can be cut so. -/
theorem exists_isCutInto (ts : List Token) :
  ∃ segments last, IsCutInto ts segments last
  := by
  induction ts using List.reverseRecOn with
  | nil => exact ⟨[], [], .nil⟩
  | append_singleton ts t ih =>
    obtain ⟨segments, last, h⟩ := ih
    by_cases ht : IsStray ts t
    · exact ⟨_, _, h.cut ht⟩
    · exact ⟨_, _, h.keep ht⟩

/-! ### Open groups -/

/-- Whether tokens leave open at least one of the groups that are open before them. -/
def LeavesOpen (n : Nat) (ts : List Token) : Prop :=
  ∀ us, us <+: ts → us.countP isRight < n + us.countP isLeft

variable {m n : Nat} {ts : List Token}

theorem LeavesOpen.mono (h : LeavesOpen m ts) (hmn : m ≤ n) :
  LeavesOpen n ts
  := fun us hus => Nat.lt_of_lt_of_le (h us hus) (Nat.add_le_add_right hmn _)

theorem LeavesOpen.pos (h : LeavesOpen n ts) :
  0 < n
  := h [] List.nil_prefix

/-- What is left open after the first token. -/
theorem leavesOpen_cons (t : Token) :
  LeavesOpen n (t :: ts)
    ↔ 0 < n ∧ LeavesOpen (if t.isLeft then n + 1 else if t.isRight then n - 1 else n) ts
  := by
  rw [LeavesOpen, forall_prefix_cons_iff]
  apply and_congr_right
  intro hn
  apply forall₂_congr
  intro us _
  rw [List.countP_cons, List.countP_cons]
  cases hl : t.isLeft with
  | true =>
    obtain rfl := isLeft_iff.mp hl
    simp only [isRight_left, Bool.false_eq_true, if_false, if_true]
    omega
  | false =>
    simp only [List.countP_nil] at hn
    cases t.isRight <;> simp only [Bool.false_eq_true, if_false, if_true] <;> omega

/-- A group that is open was opened by the first token or by one after it. -/
theorem hasOpenGroup_cons (t : Token) :
  HasOpenGroup (t :: ts) ↔ (t = leftParenthesis ∧ LeavesOpen 1 ts) ∨ HasOpenGroup ts
  := by
  have ho (vs : List Token) : LeavesOpen 1 vs
      ↔ ∀ ws, ws <+: vs → ws.countP isRight ≤ ws.countP isLeft := by
    simp only [LeavesOpen, Nat.lt_one_add_iff]
  rw [ho]
  constructor
  · rintro ⟨us, vs, h, hvs⟩
    obtain ⟨rfl, h⟩ | ⟨us, rfl, h⟩ := List.cons_eq_append_iff.mp h
    · cases h
      exact .inl ⟨rfl, hvs⟩
    · exact .inr ⟨us, vs, (List.cons.inj h).2, hvs⟩
  · rintro (⟨rfl, h⟩ | ⟨us, vs, rfl, hvs⟩)
    · exact ⟨[], ts, rfl, h⟩
    · exact ⟨t :: us, vs, rfl, hvs⟩

end Token

namespace Yard

/-- After tokens a group is open when they leave one open that was open before them, or when one of
their own is open. -/
theorem countP_isLeft_foldl_add_pos_iff (ts : List Token) (y : Yard) :
  0 < (ts.foldl add y).stack.countP isLeft
    ↔ LeavesOpen (y.stack.countP isLeft) ts ∨ HasOpenGroup ts
  := by
  induction ts generalizing y with
  | nil => simp [LeavesOpen, HasOpenGroup]
  | cons t ts ih =>
    rw [List.foldl_cons, ih, countP_isLeft_add, leavesOpen_cons, hasOpenGroup_cons, ← or_assoc]
    generalize y.stack.countP isLeft = n
    apply or_congr_left
    constructor
    · intro h
      by_cases hn : 0 < n
      · exact .inl ⟨hn, h⟩
      · -- nothing was open before, so it is the group of the first token that stays open
        right
        obtain rfl := Nat.eq_zero_of_not_pos hn
        split at h
        case isTrue hl => exact ⟨isLeft_iff.mp hl, h⟩
        case isFalse =>
          have hp := h.pos
          simp at hp
    · rintro (⟨-, h⟩ | ⟨rfl, h⟩)
      · apply h
      · apply h.mono
        simp

/-- After all tokens added to an empty yard a group is open when one of theirs is. -/
theorem countP_isLeft_foldl_add_eq_zero_iff (ts : List Token) :
  (ts.foldl add empty).stack.countP isLeft = 0 ↔ ¬ HasOpenGroup ts
  := by
  have hn : ¬ LeavesOpen (empty.stack.countP isLeft) ts := fun h => Nat.lt_irrefl 0 h.pos
  rw [← (countP_isLeft_foldl_add_pos_iff ts empty).trans (or_iff_right hn), Nat.not_lt,
    Nat.le_zero]

/-- A token is refused when it is stray. -/
theorem accepts_foldl_add_iff (ts : List Token) (t : Token) :
  (ts.foldl add empty).accepts t = true ↔ ¬ IsStray ts t
  := by
  rw [accepts, any_isLeft_eq, IsStray, ← countP_isLeft_foldl_add_eq_zero_iff, not_and,
    Bool.or_eq_true, bne_iff_ne, ← isRight_iff]
  cases t.isRight <;> simp

/-! ### Segments -/

/-- A token that is refused places all that waits, as the end of the tokens would. -/
theorem add_of_accepts_eq_false {y : Yard} {t : Token} (h : y.accepts t = false) :
  y.add t = ⟨y.output ++ y.stack, []⟩ ∧ y.stack.any isLeft = false
  := by
  rw [accepts, Bool.or_eq_false_iff, Bool.not_eq_false'] at h
  obtain ⟨hr, hs⟩ := h
  obtain rfl := isRight_iff.mp hr
  have hw : ∀ u ∈ y.stack, (!u.isLeft) = true := by
    intro u hu
    rw [eq_false_of_ne_true (List.any_eq_false.mp hs u hu), Bool.not_false]
  refine ⟨?_, hs⟩
  change y.closeGroup = _
  rw [closeGroup, List.takeWhile_eq_self_iff.mpr hw, List.dropWhile_eq_nil_iff.mpr hw]
  rfl

/-- What a yard holds after tokens that are cut into segments: what comes out of the segments has
been placed, and what comes after them is held as if nothing stood before it. -/
theorem foldl_add_eq_above {ts last : List Token} {segments : List (List Token)}
    (h : IsCutInto ts segments last) :
  ∃ ps y, segments.Forall₂ (fun s p => toPostfix s = .ok p) ps ∧ last.foldlM add? empty = .ok y
    ∧ ts.foldl add empty = y.above ps.flatten []
  := by
  induction h with
  | nil => exact ⟨[], empty, .nil, rfl, rfl⟩
  | @keep ts last segments t _ ht ih =>
    obtain ⟨ps, y, hps, hy, hts⟩ := ih
    have ha : y.accepts t = true := by
      rw [← accepts_foldl_add_iff, hts, accepts_above_nil] at ht
      apply ht
    refine ⟨ps, y.add t, hps, ?_, ?_⟩
    · rw [foldlM_append_of_eq_ok hy, List.foldlM_cons, add?, if_pos ha]
      rfl
    · rw [List.foldl_append, hts]
      apply add_above (by simp) ha
  | @cut ts last segments t _ ht ih =>
    obtain ⟨ps, y, hps, hy, hts⟩ := ih
    have ha : y.accepts t = false := by
      rw [← not_not (a := IsStray ts t), ← accepts_foldl_add_iff, hts, accepts_above_nil] at ht
      apply eq_false_of_ne_true ht
    obtain ⟨hadd, hs⟩ := add_of_accepts_eq_false ha
    have hp : toPostfix last = .ok (y.output ++ y.stack) := toPostfix_eq_ok_iff.mpr ⟨y, hy, hs, rfl⟩
    refine ⟨ps ++ [y.output ++ y.stack], empty, List.rel_append hps (.cons hp .nil), rfl, ?_⟩
    have ha' : (y.above ps.flatten []).accepts t = false := by
      rw [accepts_above_nil, ha]
    rw [List.foldl_append, hts]
    change (y.above ps.flatten []).add t = _
    rw [(add_of_accepts_eq_false ha').1]
    simp [above, empty]

end Yard

/-- A yard that is used on after failures refuses exactly the stray right parentheses. They cut all
tokens that are added into segments. Each segment that such a token ends can be converted, and in
the end the conversion of what comes after them decides: it fails, or what comes out is what comes
out of all the segments, one after the other. -/
theorem finish_foldl_add (ts : List Token) :
  (∀ us t, (IsStray us t ∧ (us.foldl Yard.add Yard.empty).add? t = .error .unbalancedParentheses)
      ∨ (¬ IsStray us t
        ∧ (us.foldl Yard.add Yard.empty).add? t = .ok ((us ++ [t]).foldl Yard.add Yard.empty)))
    ∧ (∃ segments last, IsCutInto ts segments last)
    ∧ ∀ segments last, IsCutInto ts segments last →
      ∃ ps, segments.Forall₂ (fun s p => toPostfix s = .ok p) ps
        ∧ (ts.foldl Yard.add Yard.empty).finish = (toPostfix last).map (ps.flatten ++ ·)
  := by
  refine ⟨?_, exists_isCutInto ts, ?_⟩
  · intro us t
    rw [Yard.add?, List.foldl_append]
    by_cases ht : IsStray us t
    · have ha := mt (Yard.accepts_foldl_add_iff us t).mp (not_not_intro ht)
      exact .inl ⟨ht, if_neg ha⟩
    · exact .inr ⟨ht, if_pos ((Yard.accepts_foldl_add_iff us t).mpr ht)⟩
  · intro segments last h
    obtain ⟨ps, y, hps, hy, hts⟩ := Yard.foldl_add_eq_above h
    refine ⟨ps, hps, ?_⟩
    rw [hts, toPostfix, hy]
    apply Yard.finish_above ps.flatten [] y

-- the sum before the stray parenthesis, and what comes after it
example :
  ([operand ['2'], operator ['+'], operand ['3'], rightParenthesis, operator ['*'],
      operand ['4']].foldl Yard.add Yard.empty).finish
    = .ok [operand ['2'], operand ['3'], operator ['+'], operand ['4'], operator ['*']]
  := by decide

end SliderCalculator
