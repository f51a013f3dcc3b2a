import SliderCalculator.Proofs.Postfix.Arrangement
import SliderCalculator.Proofs.Token.Scanner

/-!
# Tokens written down and read again

Tokens are written with a space between each two, and each of them is read again as it was, since
nothing goes on over a space: `scan_render`. Where blanks do not separate, operands that were next
to each other become one, and this is all that is lost: `scan_flatMap_content_iff`.
-/

namespace SliderCalculator

open Formula

namespace Token

/-- Whether a token is one that can be read off a text: an operand of letters, digits and points, an
operator or a parenthesis. -/
inductive IsWellFormed : Token → Prop where
  | operand {content : Text} (h : IsRun content) : IsWellFormed (operand content)
  | operator (o : Operator) : IsWellFormed o.token
  | left : IsWellFormed leftParenthesis
  | right : IsWellFormed rightParenthesis

/-- Whether no operand of a list comes right after another one. -/
def NoNeighbours (ts : List Token) : Prop :=
  ts.IsChain fun a b => (a.isOperand && b.isOperand) = false

variable {s t : Token} {ts : List Token} {text before after : Text}

/-- A token that can be read is whole on its own. -/
theorem IsWellFormed.isWhole (h : s.IsWellFormed) :
  IsWhole [] [] s
  := by
  cases h with
  | operand h => exact .operand ⟨h.1, h.2, by simp, by simp⟩
  | operator o => exact .operator o
  | left => exact .left
  | right => exact .right

theorem IsWhole.isWellFormed (h : IsWhole before after s) :
  s.IsWellFormed
  := by
  cases h with
  | operand h => exact .operand ⟨h.ne_nil, h.all⟩
  | operator o => exact .operator o
  | left => exact .left
  | right => exact .right

/-- What is read off a text can be read. -/
theorem isWellFormed_of_scan_eq (h : scan text = ts) :
  ∀ s ∈ ts, s.IsWellFormed
  := by
  intro s hs
  obtain ⟨us, vs, rfl⟩ := List.append_of_mem hs
  obtain ⟨before, after, -, hw, -, -⟩ := scan_eq_append_cons_iff.mp h
  apply hw.isWellFormed

/-! ### Between spaces -/

theorem isSolid_space :
  isSolid ' ' = false
  := by
  decide

/-- A text and what follows after a space are read one after the other. -/
theorem scan_append_space (u v : Text) :
  scan (u ++ ' ' :: v) = scan u ++ scan v
  := by
  rw [scan_append (areApart_cons (isOperandChar_of_isSolid_eq_false isSolid_space) v),
    scan_cons_of_isSolid_eq_false isSolid_space]

theorem render_singleton (s : Token) :
  render [s] = s.content
  := List.intercalate_singleton

theorem render_cons_cons (s t : Token) (ts : List Token) :
  render (s :: t :: ts) = s.content ++ ' ' :: render (t :: ts)
  := by
  simp [render]

/-- What is written of tokens that can be read is read as the tokens. -/
theorem scan_render (h : ∀ s ∈ ts, s.IsWellFormed) :
  scan (render ts) = ts
  := by
  induction ts with
  | nil => exact scan_nil
  | cons s ts ih =>
    obtain ⟨hs, hts⟩ := List.forall_mem_cons.mp h
    cases ts with
    | nil => rw [render_singleton, hs.isWhole.scan_content]
    | cons t ts =>
      rw [render_cons_cons, scan_append_space, hs.isWhole.scan_content, ih hts]
      rfl

/-- Only tokens that can be read are read again. -/
theorem scan_render_iff :
  scan (render ts) = ts ↔ ∀ s ∈ ts, s.IsWellFormed
  := by
  constructor
  · apply isWellFormed_of_scan_eq
  · apply scan_render

/-! ### Without spaces -/

/-- No operand goes on from a token to the next one unless both are operands. -/
theorem IsWellFormed.areApart (hs : s.IsWellFormed) (ht : t.IsWellFormed)
    (h : (s.isOperand && t.isOperand) = false) (u : Text) :
  AreApart s.content (t.content ++ u)
  := by
  cases hs with
  | operator o => apply areApart_singleton (isOperandChar_sign o)
  | left | right => apply areApart_singleton rfl
  | operand hs =>
    cases ht with
    | operand ht => contradiction
    | operator o => apply areApart_cons (isOperandChar_sign o)
    | left | right => apply areApart_cons rfl

/-- Tokens are read off their characters alone when no operands are neighbours. -/
theorem scan_flatMap_content (h : ∀ s ∈ ts, s.IsWellFormed) (hn : NoNeighbours ts) :
  scan (ts.flatMap content) = ts
  := by
  induction ts with
  | nil => exact scan_nil
  | cons s ts ih =>
    obtain ⟨hs, hts⟩ := List.forall_mem_cons.mp h
    have ha : AreApart s.content (ts.flatMap content) := by
      cases ts with
      | nil => simp [AreApart]
      | cons t ts =>
        rw [List.flatMap_cons]
        apply hs.areApart (hts t List.mem_cons_self) (List.isChain_cons_cons.mp hn).1
    rw [List.flatMap_cons, scan_append ha, hs.isWhole.scan_content, ih hts hn.tail]
    rfl

/-- Operands that are neighbours are not read off their characters alone. -/
theorem scan_flatMap_content_iff :
  scan (ts.flatMap content) = ts ↔ (∀ s ∈ ts, s.IsWellFormed) ∧ NoNeighbours ts
  := by
  constructor
  · intro h
    have hs := isWellFormed_of_scan_eq h
    refine ⟨hs, ?_⟩
    apply List.isChain_iff_forall_rel_of_append_cons_cons.mpr
    intro a b us vs hts
    rw [← Bool.not_eq_true, Bool.and_eq_true]
    rintro ⟨ha, hb⟩
    -- there would have to be some other character between the two
    obtain ⟨before, gap, after, ht, hg, hne⟩ := exists_gap_of_scan_eq (h.trans hts)
    obtain ⟨c, cs, rfl⟩ := List.exists_cons_of_ne_nil (hne ha hb)
    have hc : c ∈ ts.flatMap content := by
      rw [ht]
      simp
    obtain ⟨s, hm, hc⟩ := List.mem_flatMap.mp hc
    have hsolid := (hs s hm).isWhole.isSolid_of_mem c hc
    rw [hg c List.mem_cons_self] at hsolid
    contradiction
  · rintro ⟨h, hn⟩
    apply scan_flatMap_content h hn

/-- A token has no blanks. -/
theorem IsWellFormed.withoutBlanks_content (h : s.IsWellFormed) :
  s.content.withoutBlanks = s.content
  := by
  apply List.filter_eq_self.mpr
  intro c hc
  rw [isBlank_of_isSolid (h.isWhole.isSolid_of_mem c hc)]
  rfl

/-- Without blanks there are only the characters of the tokens. -/
theorem withoutBlanks_render (h : ∀ s ∈ ts, s.IsWellFormed) :
  (render ts).withoutBlanks = ts.flatMap content
  := by
  induction ts with
  | nil => rfl
  | cons s ts ih =>
    obtain ⟨hs, hts⟩ := List.forall_mem_cons.mp h
    have hb := hs.withoutBlanks_content
    cases ts with
    | nil => rw [render_singleton, hb, List.flatMap_singleton]
    | cons t ts =>
      rw [Text.withoutBlanks] at hb
      rw [render_cons_cons, List.flatMap_cons, ← ih hts, Text.withoutBlanks, List.filter_append, hb]
      rfl

/-- Where blanks do not separate, tokens are read again exactly when no operands are neighbours. -/
theorem normalize_render_iff :
  normalize (render ts) = ts ↔ (∀ s ∈ ts, s.IsWellFormed) ∧ NoNeighbours ts
  := by
  constructor
  · intro h
    have hs := isWellFormed_of_scan_eq h
    rw [normalize, withoutBlanks_render hs, scan_flatMap_content_iff] at h
    apply h
  · rintro ⟨hs, hn⟩
    rw [normalize, withoutBlanks_render hs]
    apply scan_flatMap_content hs hn

end Token

open Token Scanner

/-- The postfix order of tokens that can be read consists of such tokens. -/
theorem isWellFormed_of_mem_toPostfix {ts p : List Token} (h : toPostfix ts = .ok p)
    (hts : ∀ s ∈ ts, s.IsWellFormed) :
  ∀ s ∈ p, s.IsWellFormed
  := by
  intro s hs
  apply hts s
  apply List.mem_of_mem_filter ((perm_toPostfix h).mem_iff.mp hs)

/-- Tokens are written down and read again as they were exactly when they are tokens that can be
read, and without the blanks between them exactly when no operands are neighbours besides. So what
is read of a text is read again when it has been written down, and so is the postfix order of a
formula. -/
theorem tokens?_render_iff (ts : List Token) :
  ((new (render ts)).tokens? = some ts ↔ ∀ s ∈ ts, s.IsWellFormed)
    ∧ (normalize (render ts) = ts ↔ (∀ s ∈ ts, s.IsWellFormed) ∧ NoNeighbours ts)
    ∧ (∀ t, ∃ us, (new t).tokens? = some us ∧ (new (render us)).tokens? = some us)
    ∧ ∀ t p, toPostfix (normalize t) = .ok p → (new (render p)).tokens? = some p
  := by
  simp only [tokens?_new, Option.some.injEq]
  refine ⟨scan_render_iff, normalize_render_iff, ?_, ?_⟩
  · intro t
    exact ⟨scan t, rfl, scan_render (isWellFormed_of_scan_eq rfl)⟩
  · intro t p h
    apply scan_render
    apply isWellFormed_of_mem_toPostfix h (isWellFormed_of_scan_eq rfl)

/-- Two numbers next to each other, and the postfix order of a product. -/
theorem tokens?_render_numbers :
  let ts := [operand "2".toList, operand "3".toList]
  let p := [operand "2".toList, operand "3".toList, operator "*".toList]
  ((∀ s ∈ ts, s.IsWellFormed) ∧ (new (render ts)).tokens? = some ts ∧ normalize (render ts) ≠ ts)
    ∧ toPostfix (normalize "2 * 3".toList) = .ok p ∧ (new (render p)).tokens? = some p
  := by
  intro ts p
  have hscan : scan "2 3".toList = ts := by decide +kernel
  have hs : ∀ s ∈ ts, s.IsWellFormed := isWellFormed_of_scan_eq hscan
  have hp : toPostfix (normalize "2 * 3".toList) = .ok p := by decide +kernel
  obtain ⟨hr, hn, -, hpost⟩ := tokens?_render_iff ts
  refine ⟨⟨hs, hr.mpr hs, ?_⟩, hp, hpost _ _ hp⟩
  intro h
  have hne := (List.isChain_cons_cons.mp (hn.mp h).2).1
  contradiction

end SliderCalculator
