import SliderCalculator.Proofs.Formula.Expression
import SliderCalculator.Proofs.Token.Places
import SliderCalculator.Token.Scanner

/-!
# What a scanner reads

A scanner whose position lies between two characters reads the tokens of the rest of its text:
`tokens?_between`. So a scanner comes to the end of every text, whatever characters it has, and none
of its cuts lies within a character.
-/

namespace SliderCalculator

open Formula Token

namespace Scanner

/-- The scanner of a text that has been read up to the end of its first part. -/
def between (before after : Text) : Scanner :=
  ⟨before ++ after, Text.byteSize before⟩

variable (before after content : Text) (p : Char → Bool) {s : Token}

/-! ### Steps -/

theorem view?_between :
  (between before after).view? = some after
  := by
  rw [view?, between, Text.cut?_append]
  rfl

theorem countWhile?_between :
  (between before after).countWhile? p = some (Text.byteSize (after.takeWhile p))
  := by
  rw [countWhile?, view?_between]
  rfl

theorem slice?_between :
  (between before (content ++ after)).slice? (Text.byteSize content) = some content
  := by
  rw [slice?, view?_between]
  change (Text.cut? _ (content ++ after) >>= _) = _
  rw [Text.cut?_append]
  rfl

theorem advance_between :
  (between before (content ++ after)).advance (Text.byteSize content)
    = between (before ++ content) after
  := by
  simp [advance, between]

/-- A character of one byte is cut out as a token. -/
theorem single?_between {c : Char} (hc : c.utf8Size = 1) (kind : TokenKind) :
  (between before (c :: after)).single? kind = some ⟨kind, [c]⟩
  := by
  have hs : (between before (c :: after)).slice? 1 = some [c] := by
    have h := slice?_between before after [c]
    rw [Text.byteSize_cons, hc] at h
    apply h
  rw [single?, hs]
  rfl

variable {before after}

/-- A run is cut out as an operand where it ends. -/
theorem operand?_between {content : Text} (hc : ∀ c ∈ content, isOperandChar c = true)
    (ha : ∀ c ∈ after.head?, isOperandChar c = false) :
  (between before (content ++ after)).operand? = some (operand content)
  := by
  rw [operand?, countWhile?_between, (takeWhile_dropWhile_append_of_forall hc ha).1]
  change (slice? _ _ >>= _) = _
  rw [slice?_between]
  rfl

/-- A whole token is read where its first character comes next. -/
theorem token?_between (h : IsWhole [] after s) {c : Char} (hc : c ∈ s.content.head?) :
  (between before (s.content ++ after)).token? c = some s
  := by
  cases h with
  | @operand content h =>
    rw [token?, if_pos (h.all c (List.mem_of_mem_head? hc))]
    apply operand?_between h.all h.after
  | operator o =>
    obtain rfl : o.sign = c := by simpa [Operator.token, operator] using hc
    rw [token?, if_neg (by simp), if_pos (isOperatorChar_iff.mpr ⟨o, rfl⟩)]
    apply single?_between
    cases o <;> rfl
  | left | right =>
    cases hc
    apply single?_between
    rfl

/-- At the end of the text there is no token. -/
theorem next?_between_nil (before : Text) :
  (between before []).next? = some (none, between before [])
  := by
  rw [next?, skip?, countWhile?_between]
  change (view? (between before []) >>= _) = _
  rw [view?_between]
  rfl

/-- A character that belongs to no token is skipped. -/
theorem next?_between_cons {c : Char} (hc : isSolid c = false) :
  (between before (c :: after)).next? = (between (before ++ [c]) after).next?
  := by
  have hs : (between before (c :: after)).skip? = (between (before ++ [c]) after).skip? := by
    rw [skip?, skip?, countWhile?_between, countWhile?_between,
      List.takeWhile_cons_of_pos (by rw [hc]; rfl)]
    simp [between, advance, Nat.add_assoc]
  rw [next?, next?, hs]

/-- A whole token that comes next is read. -/
theorem next?_between_append (h : IsWhole [] after s) :
  (between before (s.content ++ after)).next? = some (some s, between (before ++ s.content) after)
  := by
  obtain ⟨c, cs, hs⟩ := List.exists_cons_of_ne_nil h.content_ne_nil
  have hc : c ∈ s.content.head? := by rw [hs]; rfl
  have hskip : (between before (s.content ++ after)).skip?
      = some (between before (s.content ++ after)) := by
    have hc := h.isSolid_of_mem c (List.mem_of_mem_head? hc)
    rw [skip?, countWhile?_between, hs, List.cons_append, List.takeWhile_cons_of_neg (by simp [hc])]
    rfl
  rw [next?, hskip]
  change (view? _ >>= _) = _
  rw [view?_between, hs]
  change (token? c _ >>= _) = _
  rw [← hs, token?_between h hc]
  change some (some s, advance _ (between _ _)) = _
  rw [advance_between]

/-! ### Runs -/

/-- What a scanner reads is told by its next token and what it reads after it. -/
theorem tokens?_eq (s : Scanner) :
  s.tokens? = match s.next? with
    | none => none
    | some (none, _) => some []
    | some (some token, s') => s'.tokens?.map (token :: ·)
  := by
  rw [tokens?]
  split <;> simp only [*]

/-- From a position between two characters a scanner reads the tokens of the rest of its text. -/
theorem tokens?_between (before t : Text) :
  (between before t).tokens? = some (scan t)
  := by
  induction t using text_induction generalizing before with
  | nil => rw [tokens?_eq, next?_between_nil, scan_nil]
  | skip c t hc ih =>
    rw [tokens?_eq, next?_between_cons hc, ← tokens?_eq, ih, scan_cons_of_isSolid_eq_false hc]
  | token s t hw ih =>
    rw [tokens?_eq, next?_between_append hw, hw.scan_append]
    change Option.map _ (tokens? _) = _
    rw [ih]
    rfl

/-- A scanner at the start of a text reads the tokens of the text. -/
theorem tokens?_new (t : Text) :
  (new t).tokens? = some (scan t)
  := tokens?_between [] t

/-- A scanner at the start of a text comes to its end and reads the whole tokens that stand in the
text, in the order of their places: a token after others where it stands after a part of the text
that is read as those others. The characters of the tokens are all that belong to tokens, and
operands follow each other only where other characters stand between them. The tokens of a formula
are read off its expression, of which no character is lost. -/
theorem exists_tokens?_new (t : Text) :
  ∃ ts, (new t).tokens? = some ts
    ∧ (∀ us s vs, ts = us ++ s :: vs
      ↔ ∃ before after, t = before ++ s.content ++ after ∧ IsWhole before after s
        ∧ (new before).tokens? = some us ∧ (new after).tokens? = some vs)
    ∧ ts.flatMap Token.content = t.filter isSolid
    ∧ (∀ us a b vs, ts = us ++ a :: b :: vs → a.isOperand = true → b.isOperand = true →
      ∃ before gap after, t = before ++ a.content ++ gap ++ b.content ++ after ∧ gap ≠ []
        ∧ ∀ c ∈ gap, isSolid c = false)
    ∧ ∀ values formula,
      (new (expression values formula).withoutBlanks).tokens? = some (tokens values formula)
        ∧ (tokens values formula).flatMap Token.content = expression values formula
  := by
  refine ⟨scan t, tokens?_new t, ?_, flatMap_content_scan t, ?_, ?_⟩
  · intro us s vs
    simp only [tokens?_new, Option.some.injEq]
    apply scan_eq_append_cons_iff
  · intro us a b vs h ha hb
    obtain ⟨before, gap, after, ht, hg, hn⟩ := exists_gap_of_scan_eq h
    exact ⟨before, gap, after, ht, hn ha hb, hg⟩
  · intro values formula
    constructor
    · apply tokens?_new
    · rw [tokens_eq_scan, flatMap_content_scan, List.filter_eq_self]
      apply isSolid_of_mem_expression

end Scanner

end SliderCalculator
