import SliderCalculator.Formula.Alphabet

/-!
# Reading tokens by position

A scanner reads the tokens of a text one at a time. It keeps the whole text and a position in it,
which is told by the number of bytes before it in UTF-8. A text is not cut inside a character nor
past its end: a scanner that is to do so has no result.
-/

namespace SliderCalculator

namespace Text

/-- The number of bytes of a text in UTF-8. -/
def byteSize : Text → Nat
  | [] => 0
  | c :: t => c.utf8Size + byteSize t

@[simp]
theorem byteSize_nil :
  byteSize [] = 0
  := rfl

@[simp]
theorem byteSize_cons (c : Char) (t : Text) :
  byteSize (c :: t) = c.utf8Size + byteSize t
  := rfl

@[simp]
theorem byteSize_append (s t : Text) :
  byteSize (s ++ t) = byteSize s + byteSize t
  := by
  induction s with
  | nil => simp
  | cons c s ih => simp [ih, Nat.add_assoc]

/-- The first `n` bytes of a text and the rest of it. There are none when a character stands across
the cut or the text has fewer bytes. -/
def cut? : Nat → Text → Option (Text × Text)
  | 0, t => some ([], t)
  | _ + 1, [] => none
  | n + 1, c :: t =>
    if c.utf8Size ≤ n + 1 then
      (cut? (n + 1 - c.utf8Size) t).map fun parts => (c :: parts.1, parts.2)
    else
      none

/-- The parts of a text that is cut. -/
theorem eq_append_of_cut? {n : Nat} {t s u : Text} (h : cut? n t = some (s, u)) :
  t = s ++ u ∧ byteSize s = n
  := by
  fun_induction cut? n t generalizing s with
  | case1 t =>
    cases h
    exact ⟨rfl, rfl⟩
  | case2 n => contradiction
  | case3 n c t hc ih =>
    obtain ⟨⟨s', u'⟩, hp, hs⟩ := Option.map_eq_some_iff.mp h
    cases hs
    obtain ⟨rfl, hn⟩ := ih hp
    constructor
    · rfl
    · rw [byteSize_cons, hn]
      omega
  | case4 n c t hc => contradiction

/-- A text may be cut at the end of any part of it. -/
theorem cut?_append (s t : Text) :
  cut? (byteSize s) (s ++ t) = some (s, t)
  := by
  induction s with
  | nil => rw [byteSize_nil, cut?, List.nil_append]
  | cons c s ih =>
    obtain ⟨n, hn⟩ := Nat.exists_eq_succ_of_ne_zero (Nat.ne_of_gt c.utf8Size_pos)
    rw [byteSize_cons, hn, Nat.succ_add, List.cons_append, cut?, if_pos (by omega)]
    have hs : n + byteSize s + 1 - c.utf8Size = byteSize s := by omega
    rw [hs, ih]
    rfl

-- a letter of two bytes is not cut between them
example :
  cut? 1 ['é', '2'] = none ∧ cut? 2 ['é', '2'] = some (['é'], ['2'])
  := by
  decide

end Text

/-- A text that is being read, and the position up to which it has been read, in bytes. -/
structure Scanner where
  text : Text
  index : Nat
deriving DecidableEq, Repr

namespace Scanner

open Token

/-- The scanner at the start of a text. -/
def new (t : Text) : Scanner :=
  ⟨t, 0⟩

/-- The text that has not been read. -/
def view? (s : Scanner) : Option Text :=
  (s.text.cut? s.index).map Prod.snd

/-- The number of bytes of the characters of a class that come next. -/
def countWhile? (p : Char → Bool) (s : Scanner) : Option Nat :=
  s.view?.map fun t => Text.byteSize (t.takeWhile p)

/-- The next `n` bytes as a text. -/
def slice? (n : Nat) (s : Scanner) : Option Text := do
  let t ← s.view?
  let parts ← t.cut? n
  return parts.1

/-- The operand that comes next. -/
def operand? (s : Scanner) : Option Token := do
  let n ← s.countWhile? isOperandChar
  let content ← s.slice? n
  return operand content

/-- The next byte as a token. -/
def single? (kind : TokenKind) (s : Scanner) : Option Token := do
  let content ← s.slice? 1
  return ⟨kind, content⟩

/-- The token that comes next, where a character belongs to a token that starts with it. -/
def token? (c : Char) (s : Scanner) : Option Token :=
  if isOperandChar c then
    s.operand?
  else if isOperatorChar c then
    s.single? .operator
  else
    s.single? .punctuation

/-- The scanner after `n` more bytes. -/
def advance (n : Nat) (s : Scanner) : Scanner :=
  { s with index := s.index + n }

/-- The scanner after the characters that belong to no token. -/
def skip? (s : Scanner) : Option Scanner := do
  let n ← s.countWhile? (!Formula.isSolid ·)
  return s.advance n

/-- The next token, unless the text has been read, and the scanner after it. -/
def next? (s : Scanner) : Option (Option Token × Scanner) := do
  let s ← s.skip?
  let t ← s.view?
  match t with
  | [] => return (none, s)
  | c :: _ =>
    let token ← s.token? c
    return (some token, s.advance (Text.byteSize token.content))

variable {s : Scanner}

/-- What has not been read is the end of the text from the position on. -/
theorem view?_eq_some {t : Text} (h : s.view? = some t) :
  ∃ before, s.text = before ++ t ∧ Text.byteSize before = s.index
  := by
  obtain ⟨⟨before, after⟩, hp, rfl⟩ := Option.map_eq_some_iff.mp h
  exact ⟨before, Text.eq_append_of_cut? hp⟩

/-- What is cut out has the number of bytes that it should have, and lies within the text. -/
theorem slice?_eq_some {n : Nat} {content : Text} (h : s.slice? n = some content) :
  Text.byteSize content = n ∧ s.index + n ≤ Text.byteSize s.text
  := by
  obtain ⟨t, ht, h⟩ := Option.bind_eq_some_iff.mp h
  obtain ⟨⟨content', after⟩, hp, h⟩ := Option.bind_eq_some_iff.mp h
  cases h
  obtain ⟨before, hs, hi⟩ := view?_eq_some ht
  obtain ⟨rfl, hn⟩ := Text.eq_append_of_cut? hp
  constructor
  · apply hn
  · simp only [hs, Text.byteSize_append]
    omega

/-- A token has bytes, and lies within the text. -/
theorem token?_eq_some {c : Char} {t : Text} {token : Token} (hv : s.view? = some (c :: t))
    (h : s.token? c = some token) :
  0 < Text.byteSize token.content
    ∧ s.index + Text.byteSize token.content ≤ Text.byteSize s.text
  := by
  have hs {kind : TokenKind} (h : s.single? kind = some token) :
      0 < Text.byteSize token.content
        ∧ s.index + Text.byteSize token.content ≤ Text.byteSize s.text := by
    obtain ⟨content, hc, h⟩ := Option.bind_eq_some_iff.mp h
    cases h
    obtain ⟨hn, hi⟩ := slice?_eq_some hc
    rw [hn]
    exact ⟨Nat.one_pos, hi⟩
  rw [token?] at h
  split at h
  next ho =>
    obtain ⟨n, hn, h⟩ := Option.bind_eq_some_iff.mp h
    obtain ⟨content, hc, h⟩ := Option.bind_eq_some_iff.mp h
    cases h
    rw [countWhile?, hv, Option.map_some, List.takeWhile_cons_of_pos ho] at hn
    obtain ⟨hb, hi⟩ := slice?_eq_some hc
    have hp := c.utf8Size_pos
    rw [← hb] at hi
    cases hn
    rw [Text.byteSize_cons] at hb
    exact ⟨by change 0 < Text.byteSize content; omega, hi⟩
  next =>
    split at h
    · apply hs h
    · apply hs h

/-- A scanner that reads a token comes closer to the end of its text. -/
theorem next?_eq_some {token : Token} {s' : Scanner} (h : s.next? = some (some token, s')) :
  s'.text = s.text ∧ s.index < s'.index ∧ s'.index ≤ Text.byteSize s'.text
  := by
  obtain ⟨s₁, hs, h⟩ := Option.bind_eq_some_iff.mp h
  obtain ⟨n, -, hs⟩ := Option.bind_eq_some_iff.mp hs
  obtain ⟨t, ht, h⟩ := Option.bind_eq_some_iff.mp h
  cases hs
  cases t with
  | nil => cases h
  | cons c t =>
    obtain ⟨u, hu, h⟩ := Option.bind_eq_some_iff.mp h
    cases h
    obtain ⟨hp, hi⟩ := token?_eq_some ht hu
    refine ⟨rfl, ?_, hi⟩
    change s.index < s.index + n + _
    omega

/-- All tokens that a scanner reads from its position on. -/
def tokens? (s : Scanner) : Option (List Token) :=
  match _h : s.next? with
  | none => none
  | some (none, _) => some []
  | some (some token, s') => s'.tokens?.map (token :: ·)
termination_by Text.byteSize s.text - s.index
decreasing_by
  obtain ⟨ht, hl, hi⟩ := next?_eq_some _h
  rw [ht] at hi ⊢
  omega

end Scanner

end SliderCalculator
