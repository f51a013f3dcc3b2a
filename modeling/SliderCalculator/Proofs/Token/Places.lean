import SliderCalculator.Proofs.Token.Scan

/-!
# The places of tokens

A token of a text is whole where it stands: an operand is a longest run of letters, digits and
points, and what else is a token has one character. Each whole token is read, after the tokens of
what stands before it and before the tokens of what stands after it, and nothing else is read:
`scan_eq_append_cons_iff`. All characters that belong to tokens are read: `flatMap_content_scan`.
-/

namespace SliderCalculator

open Formula

namespace Token

/-- Whether a token is whole between two texts. -/
inductive IsWhole (before after : Text) : Token → Prop where
  | operand {content : Text} (h : Text.IsLongestRun isOperandChar before content after) :
      IsWhole before after (operand content)
  | operator (o : Operator) : IsWhole before after o.token
  | left : IsWhole before after leftParenthesis
  | right : IsWhole before after rightParenthesis

/-- Whether a whole token stands in a text between parts of it that are read as other tokens. -/
def StandsBetween (t : Text) (us : List Token) (s : Token) (vs : List Token) : Prop :=
  ∃ before after, t = before ++ s.content ++ after ∧ IsWhole before after s ∧ scan before = us
    ∧ scan after = vs

variable {t u before after : Text} {us vs : List Token} {s : Token}

/-! ### Places -/

/-- No operand goes on to or from a whole token. -/
theorem IsWhole.areApart (h : IsWhole before after s) :
  AreApart before (s.content ++ after) ∧ AreApart s.content after
  := by
  cases h with
  | operand h =>
    constructor
    · intro a ha b _
      rw [h.before a ha, Bool.false_and]
    · intro a _ b hb
      rw [h.after b hb, Bool.and_false]
  | operator o =>
    have ho := isOperandChar_sign o
    exact ⟨areApart_cons ho after, areApart_singleton ho after⟩
  | left => exact ⟨areApart_cons rfl after, areApart_singleton rfl after⟩
  | right => exact ⟨areApart_cons rfl after, areApart_singleton rfl after⟩

/-- A whole token is read off its text. -/
theorem IsWhole.scan_content (h : IsWhole before after s) :
  scan s.content = [s]
  := by
  cases h with
  | operand h => apply IsRun.scan_eq ⟨h.ne_nil, h.all⟩
  | operator o =>
    change scan [o.sign] = _
    rw [scan_sign, scan_nil]
  | left =>
    change scan ['('] = _
    rw [scan_left, scan_nil]
  | right =>
    change scan [')'] = _
    rw [scan_right, scan_nil]

theorem IsWhole.content_ne_nil (h : IsWhole before after s) :
  s.content ≠ []
  := by
  intro hn
  have hs := h.scan_content
  rw [hn, scan_nil] at hs
  contradiction

/-- It is read before the tokens of what stands after it. -/
theorem IsWhole.scan_append (h : IsWhole before after s) :
  scan (s.content ++ after) = s :: scan after
  := by
  rw [Token.scan_append h.areApart.2, h.scan_content]
  rfl

/-- It is read between the tokens of what stands before it and after it. -/
theorem IsWhole.scan_eq (h : IsWhole before after s) :
  scan (before ++ s.content ++ after) = scan before ++ s :: scan after
  := by
  rw [List.append_assoc, Token.scan_append h.areApart.1, h.scan_append]

/-- What stands in a text stands also in a longer one, after what is apart from the text. -/
theorem StandsBetween.append (h : StandsBetween t us s vs) (hu : AreApart u t) :
  StandsBetween (u ++ t) (scan u ++ us) s vs
  := by
  obtain ⟨before, after, rfl, hw, hus, hvs⟩ := h
  have hs : AreApart u (before ++ s.content) := hu.of_append_right
  refine ⟨u ++ before, after, ?_, ?_, ?_, hvs⟩
  · simp only [List.append_assoc]
  · cases hw with
    | operand h => exact .operand (hs.isLongestRun h)
    | operator o => exact .operator o
    | left => exact .left
    | right => exact .right
  · rw [scan_append hs.of_append_right, hus]

/-! ### Induction on texts -/

/-- All characters of a whole token belong to tokens. -/
theorem IsWhole.isSolid_of_mem (h : IsWhole before after s) :
  ∀ c ∈ s.content, isSolid c = true
  := by
  intro c hc
  cases h with
  | operand h => simp [isSolid, h.all c hc]
  | operator o =>
    obtain rfl := List.mem_singleton.mp hc
    simp [isSolid, isOperatorChar]
  | left | right =>
    obtain rfl := List.mem_singleton.mp hc
    rfl

theorem isOperandChar_of_isSolid_eq_false {c : Char} (hc : isSolid c = false) :
  isOperandChar c = false
  := by
  simp only [isSolid, Bool.or_eq_false_iff] at hc
  apply hc.1.1

/-- A character that belongs to no token is not read. -/
theorem scan_cons_of_isSolid_eq_false {c : Char} (hc : isSolid c = false) (t : Text) :
  scan (c :: t) = scan t
  := by
  simp only [isSolid, Bool.or_eq_false_iff] at hc
  simp [scan, hc]

/-- A text is empty, or it starts with a character that belongs to no token or with a whole token.
So what is true of the empty text and of each text of which the rest satisfies it is true of all
texts. -/
theorem text_induction {motive : Text → Prop} (nil : motive [])
    (skip : ∀ c t, isSolid c = false → motive t → motive (c :: t))
    (token : ∀ s t, IsWhole [] t s → motive t → motive (s.content ++ t)) (t : Text) :
  motive t
  := by
  fun_induction scan t with
  | case1 => exact nil
  | case2 c t hc ih =>
    have hw : IsWhole [] (t.dropWhile isOperandChar) (operand (c :: t.takeWhile isOperandChar)) :=
      .operand ⟨List.cons_ne_nil _ _, all_cons_takeWhile hc t, by simp, head?_dropWhile⟩
    have h := token _ _ hw ih
    rw [cons_eq_takeWhile_append isOperandChar c t]
    apply h
  | case3 c t hc ho ih =>
    obtain ⟨o, rfl⟩ := isOperatorChar_iff.mp ho
    exact token _ t (.operator o) ih
  | case4 c t hc ho hp ih =>
    obtain rfl | rfl := isPunctuationChar_iff.mp hp
    · exact token _ t .left ih
    · exact token _ t .right ih
  | case5 c t hc ho hp ih => exact skip c t (by simp [isSolid, *]) ih

/-- What is read stands in the text. -/
theorem standsBetween_of_scan_eq (h : scan t = us ++ s :: vs) :
  StandsBetween t us s vs
  := by
  induction t using text_induction generalizing us with
  | nil => simp [scan_nil] at h
  | skip c t hc ih =>
    rw [scan_cons_of_isSolid_eq_false hc] at h
    have hs := (ih h).append (u := [c])
      (areApart_singleton (isOperandChar_of_isSolid_eq_false hc) t)
    rw [scan_cons_of_isSolid_eq_false hc, scan_nil] at hs
    apply hs
  | token a t hw ih =>
    rw [hw.scan_append] at h
    obtain ⟨rfl, h⟩ | ⟨us, rfl, h⟩ := List.cons_eq_append_iff.mp h
    · cases h
      exact ⟨[], t, rfl, hw, scan_nil, rfl⟩
    · have hs := (ih (List.cons.inj h).2).append hw.areApart.2
      rw [hw.scan_content] at hs
      apply hs

/-- The tokens of a text are the whole tokens that stand in it, in the order of their places. -/
theorem scan_eq_append_cons_iff :
  scan t = us ++ s :: vs ↔ StandsBetween t us s vs
  := by
  constructor
  · apply standsBetween_of_scan_eq
  · rintro ⟨before, after, rfl, hw, rfl, rfl⟩
    apply hw.scan_eq

/-- The operands of a text are its longest runs of letters, digits and points. -/
theorem operand_mem_scan_iff {content : Text} :
  operand content ∈ scan t
    ↔ ∃ before after, t = before ++ content ++ after
      ∧ Text.IsLongestRun isOperandChar before content after
  := by
  constructor
  · intro h
    obtain ⟨us, vs, h⟩ := List.append_of_mem h
    obtain ⟨before, after, ht, hw, -, -⟩ := scan_eq_append_cons_iff.mp h
    cases hw with
    | operand hr => exact ⟨before, after, ht, hr⟩
  · rintro ⟨before, after, rfl, hr⟩
    have hw : IsWhole before after (operand content) := .operand hr
    have hs := hw.scan_eq
    change scan (before ++ content ++ after) = _ at hs
    rw [hs]
    apply List.mem_append_right _ List.mem_cons_self

/-- A whole token is proper. -/
theorem IsWhole.isProper (h : IsWhole before after s) :
  s.IsProper
  := by
  cases h with
  | operand h => exact .operand _
  | operator o => exact .operator o
  | left => exact .left
  | right => exact .right

/-- The tokens of a text are proper. -/
theorem isProper_of_mem_scan :
  ∀ s ∈ scan t, s.IsProper
  := by
  intro s hs
  obtain ⟨us, vs, h⟩ := List.append_of_mem hs
  obtain ⟨before, after, -, hw, -, -⟩ := scan_eq_append_cons_iff.mp h
  apply hw.isProper

/-! ### Characters -/

/-- The characters of the tokens of a text are those of the text that belong to tokens, in the same
order. -/
theorem flatMap_content_scan (t : Text) :
  (scan t).flatMap content = t.filter isSolid
  := by
  induction t using text_induction with
  | nil => rw [scan_nil]; rfl
  | skip c t hc ih =>
    rw [scan_cons_of_isSolid_eq_false hc, ih, List.filter_cons_of_neg (by simp [hc])]
  | token s t hw ih =>
    rw [hw.scan_append, List.flatMap_cons, ih, List.filter_append,
      List.filter_eq_self.mpr hw.isSolid_of_mem]

/-- A text without tokens has none of their characters. -/
theorem isSolid_of_scan_eq_nil (h : scan t = []) :
  ∀ c ∈ t, isSolid c = false
  := by
  have hf := flatMap_content_scan t
  rw [h, List.flatMap_nil, eq_comm, List.filter_eq_nil_iff] at hf
  intro c hc
  apply eq_false_of_ne_true (hf c hc)

/-- The start of an operand is a character of operands. -/
theorem IsWhole.exists_head? (h : IsWhole before after s) (hs : s.isOperand = true) :
  ∃ c ∈ s.content.head?, isOperandChar c = true
  := by
  cases h with
  | @operand content h =>
    obtain ⟨c, cs, rfl⟩ := List.exists_cons_of_ne_nil h.ne_nil
    exact ⟨c, rfl, h.all c List.mem_cons_self⟩
  | operator | left | right => contradiction

/-- Between two tokens of which one comes right after the other there are no characters of tokens,
and between two operands there is some other character. -/
theorem exists_gap_of_scan_eq {a b : Token} (h : scan t = us ++ a :: b :: vs) :
  ∃ before gap after, t = before ++ a.content ++ gap ++ b.content ++ after
    ∧ (∀ c ∈ gap, isSolid c = false)
    ∧ (a.isOperand = true → b.isOperand = true → gap ≠ [])
  := by
  obtain ⟨before, _, rfl, ha, -, h⟩ := scan_eq_append_cons_iff.mp h
  obtain ⟨gap, after, rfl, hb, hg, -⟩ : StandsBetween _ [] b vs := standsBetween_of_scan_eq h
  refine ⟨before, gap, after, ?_, isSolid_of_scan_eq_nil hg, ?_⟩
  · simp only [List.append_assoc]
  · rintro hka hkb rfl
    obtain ⟨c, hc, hco⟩ := hb.exists_head? hkb
    cases ha with
    | operand ha =>
      have hn := ha.after c (by rw [List.nil_append, List.head?_append, hc]; rfl)
      rw [hco] at hn
      contradiction
    | operator | left | right => contradiction

end Token

end SliderCalculator
