import SliderCalculator.Assignment
import SliderCalculator.Proofs.Number.Numeral
import SliderCalculator.Proofs.Number.Reading

/-!
# The grammar of assignments

An assignment is written as a letter, an equals sign and a numeral, with blanks wherever they are
wanted around these. What is read as an assignment is what one is written as, and every other text
is reported as it stands: `read_iff_isWrittenAs`.
-/

namespace SliderCalculator

/-! ### Blanks around a text -/

namespace Text

/-- Whether a text consists of another one with blanks before and after it. -/
def IsPadded (t padded : Text) : Prop :=
  ∃ before behind : Text, before.isAllBlank = true ∧ behind.isAllBlank = true
    ∧ padded = before ++ t ++ behind

variable {t padded u : Text}

theorem isAllBlank_takeWhile (t : Text) :
  Text.isAllBlank (t.takeWhile isBlank) = true
  := by
  apply List.all_eq_true.mpr
  intro c hc
  apply List.mem_takeWhile_imp hc

/-- Blanks surround a trimmed text. -/
theorem isPadded_trim (t : Text) :
  IsPadded t.trim t
  := by
  refine ⟨t.takeWhile isBlank, (t.trimStart.reverse.takeWhile isBlank).reverse,
    isAllBlank_takeWhile t, ?_, ?_⟩
  · rw [isAllBlank, List.all_reverse]
    apply isAllBlank_takeWhile
  · have hend : t.trim ++ (t.trimStart.reverse.takeWhile isBlank).reverse = t.trimStart := by
      rw [trim, trimEnd, ← List.reverse_append, List.takeWhile_append_dropWhile,
        List.reverse_reverse]
    rw [List.append_assoc, hend, trimStart, List.takeWhile_append_dropWhile]

theorem trimStart_append (h : t.isAllBlank = true) (u : Text) :
  trimStart (t ++ u) = trimStart u
  := List.dropWhile_append_of_pos (List.all_eq_true.mp h)

theorem trimEnd_append (h : u.isAllBlank = true) (t : Text) :
  trimEnd (t ++ u) = trimEnd t
  := by
  rw [trimEnd, List.reverse_append, List.dropWhile_append_of_pos, trimEnd]
  intro c hc
  apply List.all_eq_true.mp h c (List.mem_reverse.mp hc)

/-- A text without blanks is what trimming leaves of it with blanks around it. -/
theorem IsPadded.trim_eq (h : IsPadded t padded) (ht : ∀ c ∈ t, isBlank c = false) :
  padded.trim = t
  := by
  have hdrop {u : Text} (hu : ∀ c ∈ u, isBlank c = false) : u.dropWhile isBlank = u := by
    cases u with
    | nil => rfl
    | cons c u => rw [List.dropWhile_cons_of_neg (Bool.not_eq_true _ ▸ hu c List.mem_cons_self)]
  have hend : trimEnd t = t := by
    rw [trimEnd, hdrop fun c hc => ht c (List.mem_reverse.mp hc), List.reverse_reverse]
  obtain ⟨before, behind, hb, hb', rfl⟩ := h
  rw [List.append_assoc, trim, trimStart_append hb]
  cases t with
  | nil =>
    have := trimStart_append hb' []
    rw [List.append_nil] at this
    rw [List.nil_append, this]
    rfl
  | cons c t =>
    have hs : trimStart (c :: t ++ behind) = c :: t ++ behind :=
      List.dropWhile_cons_of_neg (Bool.not_eq_true _ ▸ ht c List.mem_cons_self)
    rw [hs, trimEnd_append hb', hend]

end Text

open Text

/-- No character of a numeral is a blank. -/
theorem Numeral.IsWrittenAs.isBlank {n : Numeral} {t : Text} (h : n.IsWrittenAs t) :
  ∀ c ∈ t, Text.isBlank c = false
  := by
  intro c hc
  obtain hd | hm := h.isDigit_or_mem c hc
  · apply isBlank_of_isAlphanum (isAlphanum_iff.mpr (.inr hd))
  · have hb : marks.all (!Text.isBlank ·) = true := by decide
    simpa using List.all_eq_true.mp hb c hm

namespace Assignment

/-- Whether the name is a letter, and the value is finite and not below zero. -/
structure IsValid (a : Assignment) : Prop where
  isAlpha : a.name.isAlpha = true
  isFinite : a.value.isFinite = true
  not_lt : ¬ a.value < 0

/-- Whether a text is the name and a numeral on the two sides of an equals sign, with blanks around
them, where the numeral is rounded to the value. -/
structure IsWrittenAs (a : Assignment) (t : Text) : Prop extends a.IsValid where
  exists_eq : ∃ left right numeral, ∃ n : Numeral, t = left ++ '=' :: right
    ∧ IsPadded [a.name] left ∧ IsPadded numeral right
    ∧ n.IsWrittenAs numeral ∧ n.RoundsTo a.value

variable {t : Text}

/-- What is read as a name is a letter with blanks around it. -/
theorem readName?_eq_some_iff {c : Char} :
  readName? t = some c ↔ c.isAlpha = true ∧ IsPadded [c] t
  := by
  constructor
  · intro h
    rw [readName?] at h
    split at h
    case h_1 c ht =>
      split at h
      case isTrue hc =>
        cases h
        exact ⟨hc, ht ▸ isPadded_trim t⟩
      case isFalse => contradiction
    case h_2 => contradiction
  · rintro ⟨hc, h⟩
    have hb : ∀ d ∈ [c], isBlank d = false := by
      intro d hd
      rw [List.mem_singleton.mp hd]
      apply isBlank_of_isAlphanum (isAlphanum_iff.mpr (.inl hc))
    rw [readName?, h.trim_eq hb]
    apply if_pos hc

/-- What is read as a value is a numeral with blanks around it. -/
theorem readValue?_eq_some_iff {x : Float} :
  readValue? t = some x
    ↔ x.isFinite = true ∧ ¬ x < 0
      ∧ ∃ numeral, ∃ n : Numeral, IsPadded numeral t ∧ n.IsWrittenAs numeral ∧ n.RoundsTo x
  := by
  constructor
  · intro h
    rw [readValue?] at h
    split at h
    case h_1 y hy =>
      split at h
      case isTrue hx =>
        cases h
        rw [Bool.and_eq_true, Bool.not_eq_true', decide_eq_false_iff_not] at hx
        obtain ⟨n, hn, hf⟩ := (Number.read?_eq_some_iff_of_isFinite hx.1).mp hy
        exact ⟨hx.1, hx.2, _, n, isPadded_trim t, hn, Numeral.toFloat_eq_iff.mp hf⟩
      case isFalse => contradiction
    case h_2 => contradiction
  · rintro ⟨hx, hlt, numeral, n, ht, hn, hr⟩
    have hread := (Number.read?_eq_some_iff_of_isFinite hx).mpr
      ⟨n, hn, Numeral.toFloat_eq_iff.mpr hr⟩
    rw [readValue?, ht.trim_eq hn.isBlank, hread]
    simp [hx, hlt]

/-- The sides of the first equals sign are read. -/
theorem read?_eq_some_iff {a : Assignment} :
  read? t = some a
    ↔ ∃ left right, t = left ++ '=' :: right ∧ '=' ∉ left
      ∧ readName? left = some a.name ∧ readValue? right = some a.value
  := by
  constructor
  · intro h
    rw [read?, List.span_eq_takeWhile_dropWhile] at h
    split at h
    case h_1 left c right hs =>
      split at h
      case h_1 name value hn hv =>
        cases h
        obtain ⟨rfl, hd⟩ := Prod.mk.inj hs
        have hc : c = '=' := by
          simpa using head?_dropWhile (p := (· != '=')) (t := t) c (by rw [hd]; rfl)
        refine ⟨_, right, ?_, ?_, hn, hv⟩
        · subst hc
          rw [← hd, List.takeWhile_append_dropWhile]
        · intro hm
          have := List.mem_takeWhile_imp hm
          contradiction
      case h_2 => contradiction
    case h_2 => contradiction
  · rintro ⟨left, right, rfl, hl, hn, hv⟩
    have hl : ∀ c ∈ left, (c != '=') = true := by
      intro c hc
      rw [bne_iff_ne]
      rintro rfl
      apply hl hc
    rw [read?, span_append hl (by simp)]
    simp only [hn, hv]

/-- What is read as an assignment is what one is written as. -/
theorem read?_eq_some_iff_isWrittenAs {a : Assignment} :
  read? t = some a ↔ a.IsWrittenAs t
  := by
  simp only [read?_eq_some_iff, readName?_eq_some_iff, readValue?_eq_some_iff]
  constructor
  · rintro ⟨left, right, ht, -, ⟨hc, hl⟩, hx, hlt, numeral, n, hr, hn, hv⟩
    exact ⟨⟨hc, hx, hlt⟩, left, right, numeral, n, ht, hl, hr, hn, hv⟩
  · rintro ⟨⟨hc, hx, hlt⟩, left, right, numeral, n, ht, hl, hr, hn, hv⟩
    refine ⟨left, right, ht, ?_, ⟨hc, hl⟩, hx, hlt, numeral, n, hr, hn, hv⟩
    -- neither a blank nor a letter is an equals sign
    obtain ⟨before, behind, hb, hb', rfl⟩ := hl
    have hblank : isBlank '=' ≠ true := by decide
    rw [List.mem_append, List.mem_append, List.mem_singleton]
    rintro ((h | h) | h)
    · exact hblank (List.all_eq_true.mp hb _ h)
    · rw [← h] at hc
      contradiction
    · exact hblank (List.all_eq_true.mp hb' _ h)

theorem read_eq_ok_iff {a : Assignment} :
  read t = .ok a ↔ a.IsWrittenAs t
  := by
  rw [← read?_eq_some_iff_isWrittenAs, read]
  cases read? t <;> simp

/-- A text that is read as no assignment is reported as a whole. -/
theorem read_eq_error_iff {e : Error} :
  read t = .error e ↔ e = .notAssignment t ∧ ∀ a : Assignment, ¬ a.IsWrittenAs t
  := by
  simp only [← read?_eq_some_iff_isWrittenAs]
  rw [read]
  cases read? t <;> simp [eq_comm]

/-- A text is read as the assignment that is written as the text, if there is one, and is otherwise
reported as a whole not to be one. -/
theorem read_iff_isWrittenAs (t : Text) :
  (∀ a : Assignment, read t = .ok a ↔ a.IsWrittenAs t)
    ∧ ∀ e, read t = .error e ↔ e = .notAssignment t ∧ ∀ a : Assignment, ¬ a.IsWrittenAs t
  := by
  constructor
  · exact fun a => read_eq_ok_iff
  · exact fun e => read_eq_error_iff

end Assignment

end SliderCalculator
