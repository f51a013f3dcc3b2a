import SliderCalculator.Formula.Alphabet
import SliderCalculator.Proofs.Grammar.Alternation
import SliderCalculator.Proofs.TakeWhile

/-!
# The tokens of a text

The text of an expression whose operands are runs of letters, digits and points is read as the
tokens of the expression. Two texts between which no operand goes on are read one after the other.
-/

namespace SliderCalculator

namespace Token

/-! ### Characters -/

theorem isOperandChar_of_isAlphanum {c : Char} (h : c.isAlphanum = true) :
  isOperandChar c = true
  := by
  simp [isOperandChar, h]

theorem isOperandChar_of_isDigit {c : Char} (h : c.isDigit = true) :
  isOperandChar c = true
  := isOperandChar_of_isAlphanum (Text.isAlphanum_iff.mpr (.inr h))

/-- The sign of an operator. -/
theorem isOperatorChar_iff {c : Char} :
  isOperatorChar c = true ↔ ∃ o : Operator, o.sign = c
  := by
  constructor
  · intro h
    obtain ⟨o, ho⟩ := Option.isSome_iff_exists.mp h
    exact ⟨o, Operator.ofSign?_iff.mp ho⟩
  · rintro ⟨o, rfl⟩
    simp [isOperatorChar]

/-- A parenthesis. -/
theorem isPunctuationChar_iff {c : Char} :
  isPunctuationChar c = true ↔ c = '(' ∨ c = ')'
  := by
  simp [isPunctuationChar]

@[simp]
theorem isOperandChar_sign (o : Operator) :
  isOperandChar o.sign = false
  := by
  cases o <;> decide

@[simp] theorem isOperandChar_left : isOperandChar '(' = false := by decide
@[simp] theorem isOperandChar_right : isOperandChar ')' = false := by decide

/-! ### Reading -/

theorem scan_nil :
  scan [] = []
  := by
  rw [scan]

@[simp]
theorem scan_sign (o : Operator) (t : Text) :
  scan (o.sign :: t) = o.token :: scan t
  := by
  rw [scan]
  simp [isOperatorChar, Operator.token]

@[simp]
theorem scan_left (t : Text) :
  scan ('(' :: t) = leftParenthesis :: scan t
  := by
  rw [scan]
  rfl

@[simp]
theorem scan_right (t : Text) :
  scan (')' :: t) = rightParenthesis :: scan t
  := by
  rw [scan]
  rfl

/-- A run of letters, digits and points is read as an operand where it ends. -/
theorem scan_run_append {content t : Text} (hn : content ≠ [])
    (hc : ∀ c ∈ content, isOperandChar c = true) (ht : ∀ c ∈ t.head?, isOperandChar c = false) :
  scan (content ++ t) = operand content :: scan t
  := by
  cases content with
  | nil => contradiction
  | cons c cs =>
    have hcs : ∀ c ∈ cs, isOperandChar c = true := fun c h => hc c (List.mem_cons_of_mem _ h)
    obtain ⟨htake, hdrop⟩ := takeWhile_dropWhile_append_of_forall hcs ht
    rw [List.cons_append, scan, if_pos (hc c List.mem_cons_self), htake, hdrop]

end Token

open Token

/-! ### Texts of expressions -/

/-- Whether a text is read as one operand: a run of letters, digits and points. -/
def IsRun (content : Text) : Prop :=
  content ≠ [] ∧ ∀ c ∈ content, isOperandChar c = true

/-- A run is read as one operand. -/
theorem IsRun.scan_eq {content : Text} (h : IsRun content) :
  scan content = [operand content]
  := by
  have hs := scan_run_append h.1 h.2 (t := []) (by simp)
  rw [List.append_nil, scan_nil] at hs
  apply hs

/-- Digits make a run longer. -/
theorem IsRun.append {content digits : Text} (h : IsRun content)
    (hd : ∀ c ∈ digits, c.isDigit = true) :
  IsRun (content ++ digits)
  := by
  constructor
  · apply List.append_ne_nil_of_left_ne_nil h.1
  · intro c hc
    apply (List.mem_append.mp hc).elim (h.2 c) fun hc => isOperandChar_of_isDigit (hd c hc)

namespace Token

/-- Whether no operand goes on from a text into another one. -/
def AreApart (s t : Text) : Prop :=
  ∀ a ∈ s.getLast?, ∀ b ∈ t.head?, (isOperandChar a && isOperandChar b) = false

/-- Only the end of the first text matters. -/
theorem AreApart.of_append {s t u : Text} (h : AreApart (s ++ t) u) :
  AreApart t u
  := by
  intro a ha
  apply h a
  rw [List.getLast?_append, ha]
  rfl

/-- Only the start of the second text matters. -/
theorem AreApart.of_append_right {s t u : Text} (h : AreApart s (t ++ u)) :
  AreApart s t
  := by
  intro a ha b hb
  apply h a ha b
  rw [List.head?_append, hb]
  rfl

/-- No operand goes on from a character that belongs to none. -/
theorem areApart_singleton {c : Char} (hc : isOperandChar c = false) (t : Text) :
  AreApart [c] t
  := by
  intro a ha b _
  obtain rfl : c = a := by simpa using ha
  rw [hc, Bool.false_and]

/-- No operand goes on to such a character. -/
theorem areApart_cons {s : Text} {c : Char} (hc : isOperandChar c = false) (t : Text) :
  AreApart s (c :: t)
  := by
  intro a _ b hb
  cases hb
  rw [hc, Bool.and_false]

/-- Two texts are scanned one after the other when they are apart. -/
theorem scan_append {s t : Text} (h : AreApart s t) :
  scan (s ++ t) = scan s ++ scan t
  := by
  fun_induction scan s with
  | case1 => rfl
  | case2 c s hc ih =>
    have hs := cons_eq_takeWhile_append isOperandChar c s
    have hr : ∀ d ∈ c :: s.takeWhile isOperandChar, isOperandChar d = true :=
      all_cons_takeWhile hc s
    rw [hs] at h
    rw [hs, List.append_assoc, scan_run_append (List.cons_ne_nil _ _) hr, ih h.of_append,
      List.cons_append]
    intro b hb
    cases hd : s.dropWhile isOperandChar with
    | cons e u =>
      apply head?_dropWhile (t := s)
      rw [hd] at hb ⊢
      apply hb
    | nil =>
      -- the run reaches up to the end of the first text
      rw [hd, List.append_nil] at h
      rw [hd] at hb
      have hl := List.getLast?_eq_some_getLast (List.cons_ne_nil c (s.takeWhile isOperandChar))
      have hn := h _ hl b hb
      rw [hr _ (List.getLast_mem _), Bool.true_and] at hn
      apply hn
  | case3 c s hc ho ih =>
    rw [List.cons_append, scan, if_neg hc, if_pos ho, ih (AreApart.of_append (s := [c]) h),
      List.cons_append]
  | case4 c s hc ho hp ih =>
    rw [List.cons_append, scan, if_neg hc, if_neg ho, if_pos hp,
      ih (AreApart.of_append (s := [c]) h), List.cons_append]
  | case5 c s hc ho hp ih =>
    rw [List.cons_append, scan, if_neg hc, if_neg ho, if_neg hp,
      ih (AreApart.of_append (s := [c]) h)]

/-- When only letters, digits and points of a text are replaced, its tokens are replaced one by
one. -/
theorem scan_flatMap {s : Char → Text} {t : Text}
    (h : ∀ c ∈ t, isOperandChar c = false → s c = [c]) :
  scan (t.flatMap s) = (scan t).flatMap fun u => scan (u.content.flatMap s)
  := by
  fun_induction scan t with
  | case1 => rw [List.flatMap_nil, List.flatMap_nil, scan_nil]
  | case2 c t hc ih =>
    have ht := cons_eq_takeWhile_append isOperandChar c t
    have hs : ∀ d ∈ t.dropWhile isOperandChar, isOperandChar d = false → s d = [d] := by
      intro d hd
      apply h d
      rw [ht]
      apply List.mem_append_right _ hd
    rw [ht, List.flatMap_append, scan_append, ih hs, List.flatMap_cons]
    · rfl
    · -- what follows a run is not replaced
      intro a _ b hb
      rw [Bool.and_eq_false_iff]
      right
      cases hd : t.dropWhile isOperandChar with
      | nil =>
        rw [hd] at hb
        contradiction
      | cons d u =>
        have hdo : isOperandChar d = false := head?_dropWhile (t := t) d (by rw [hd]; rfl)
        rw [hd, List.flatMap_cons, hs d (by rw [hd]; exact List.mem_cons_self) hdo] at hb
        cases hb
        apply hdo
  | case3 c t hc ho ih | case4 c t hc ho hp ih | case5 c t hc ho hp ih =>
    have hsc := h c List.mem_cons_self (eq_false_of_ne_true hc)
    have ih := ih fun d hd => h d (List.mem_cons_of_mem _ hd)
    rw [List.flatMap_cons, hsc, List.singleton_append, scan]
    simp [scan, operator, *]

end Token

/-! ### Longest runs -/

/-- Whether a text is a longest run of characters of a class between two others. -/
structure Text.IsLongestRun (p : Char → Bool) (before run after : Text) : Prop where
  ne_nil : run ≠ []
  all : ∀ c ∈ run, p c = true
  before : ∀ c ∈ before.getLast?, p c = false
  after : ∀ c ∈ after.head?, p c = false

/-- A longest run of operand characters stays one when something apart from the rest is put
before it. -/
theorem Token.AreApart.isLongestRun {s before run after : Text}
    (h : AreApart s (before ++ run)) (hr : Text.IsLongestRun isOperandChar before run after) :
  Text.IsLongestRun isOperandChar (s ++ before) run after
  := by
  refine ⟨hr.ne_nil, hr.all, ?_, hr.after⟩
  intro c hc
  rw [List.getLast?_append] at hc
  cases before with
  | cons b bs =>
    apply hr.before c
    rw [List.getLast?_cons] at hc ⊢
    apply hc
  | nil =>
    obtain ⟨b, bs, rfl⟩ := List.exists_cons_of_ne_nil hr.ne_nil
    have hn := h c hc b rfl
    rw [hr.all b List.mem_cons_self, Bool.and_true] at hn
    apply hn

end SliderCalculator
