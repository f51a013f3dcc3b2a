import SliderCalculator.Proofs.Number.RoundTrip

/-!
# The grammar of numerals

A numeral is written as a sign, digits with a point before, among or after them, and an exponent
behind a mark. Sign, point and exponent may be left out. What is read as a numeral is what one is
written as: `read?_eq_some_iff`. The words that are read as numbers denote none that is finite.
-/

namespace SliderCalculator

namespace Numeral

/-- Whether a text consists of digits, of which it has one at least. -/
def IsDigits (t : Text) : Prop :=
  t ≠ [] ∧ ∀ c ∈ t, c.isDigit = true

/-- Whether a text is the sign of a negative number or of one that is not. No sign is needed for the
latter. -/
inductive IsSign : (negative : Bool) → Text → Prop where
  | none : IsSign false []
  | plus : IsSign false ['+']
  | minus : IsSign true ['-']

/-- Whether a text consists of the digits before a point, the point and the digits after it. Without
digits after it the point may be left out, and without a point there are digits. -/
inductive IsSignificand : (whole fraction : Text) → Text → Prop where
  | whole {whole : Text} (hw : IsDigits whole) : IsSignificand whole [] whole
  | wholePoint {whole : Text} (hw : IsDigits whole) : IsSignificand whole [] (whole ++ ['.'])
  | pointFraction {fraction : Text} (hf : IsDigits fraction) :
      IsSignificand [] fraction ('.' :: fraction)
  | wholePointFraction {whole fraction : Text} (hw : IsDigits whole) (hf : IsDigits fraction) :
      IsSignificand whole fraction (whole ++ '.' :: fraction)

/-- Whether a text is a mark and an exponent behind it. Nothing is written for the exponent zero, or
may be. -/
inductive IsExponent : Int → Text → Prop where
  | none : IsExponent 0 []
  | digits {mark : Char} (hm : mark = 'e' ∨ mark = 'E') {negative : Bool} {sign digits : Text}
      (hs : IsSign negative sign) (hd : IsDigits digits) :
      IsExponent (if negative then -(ofDigits digits : Int) else ofDigits digits)
        (mark :: (sign ++ digits))

/-- Whether a text is the sign, the digits and the exponent of a numeral. -/
def IsWrittenAs (n : Numeral) (t : Text) : Prop :=
  ∃ sign significand exponent, t = sign ++ significand ++ exponent ∧ IsSign n.negative sign
    ∧ IsSignificand n.whole n.fraction significand ∧ IsExponent n.exponent exponent

variable {negative : Bool} {whole fraction t sign significand : Text} {exponent : Int}

/-! ### Signs -/

/-- Whether a text starts with a sign. -/
def StartsWithSign (t : Text) : Prop :=
  t.head? = some '-' ∨ t.head? = some '+'

/-- A text begins with the sign that is read. -/
theorem exists_isSign (t : Text) :
  ∃ negative sign u, readSign t = (negative, u) ∧ t = sign ++ u ∧ IsSign negative sign
  := by
  unfold readSign
  split
  · exact ⟨_, _, _, rfl, rfl, .minus⟩
  · exact ⟨_, _, _, rfl, rfl, .plus⟩
  · exact ⟨_, _, _, rfl, rfl, .none⟩

/-- A sign is read that no other one follows. -/
theorem readSign_append (hs : IsSign negative sign) (ht : ¬ StartsWithSign t) :
  readSign (sign ++ t) = (negative, t)
  := by
  cases hs with
  | plus | minus => rfl
  | none =>
    rw [List.nil_append]
    unfold readSign
    split
    · exact absurd (.inl rfl) ht
    · exact absurd (.inr rfl) ht
    · rfl

/-- Digits start with a digit. -/
theorem IsDigits.head? (h : IsDigits t) :
  ∃ c, t.head? = some c ∧ c.isDigit = true
  := by
  obtain ⟨c, cs, rfl⟩ := List.exists_cons_of_ne_nil h.1
  exact ⟨c, rfl, h.2 c List.mem_cons_self⟩

theorem IsDigits.not_startsWithSign (h : IsDigits t) :
  ¬ StartsWithSign t
  := by
  obtain ⟨c, hc, hd⟩ := h.head?
  rw [StartsWithSign, hc]
  rintro (h | h)
  · cases h
    contradiction
  · cases h
    contradiction

theorem IsDigits.head?_append (h : IsDigits t) (u : Text) :
  (t ++ u).head? = t.head?
  := by
  obtain ⟨c, cs, rfl⟩ := List.exists_cons_of_ne_nil h.1
  rfl

/-- No sign comes before what starts with a digit or a point. -/
theorem IsSignificand.not_startsWithSign (h : IsSignificand whole fraction significand) (u : Text) :
  ¬ StartsWithSign (significand ++ u)
  := by
  cases h with
  | whole hw =>
    rw [StartsWithSign, hw.head?_append]
    apply hw.not_startsWithSign
  | wholePoint hw | wholePointFraction hw =>
    rw [StartsWithSign, List.append_assoc, hw.head?_append]
    apply hw.not_startsWithSign
  | pointFraction => simp [StartsWithSign]

/-- There is a digit before or after the point. -/
theorem IsSignificand.not_nil (h : IsSignificand whole fraction significand) :
  ¬ (whole = [] ∧ fraction = [])
  := by
  rintro ⟨hw, hf⟩
  cases h with
  | whole h | wholePoint h | wholePointFraction h => apply h.1 hw
  | pointFraction h => apply h.1 hf

/-! ### Exponents -/

theorem readExponent?_cons (mark : Char) (t : Text) :
  readExponent? (mark :: t)
    = if (mark = 'e' ∨ mark = 'E') ∧ (readSign t).2 ≠ []
          ∧ (readSign t).2.all Char.isDigit = true then
        some (if (readSign t).1 then -(ofDigits (readSign t).2 : Int) else ofDigits (readSign t).2)
      else
        none
  := rfl

/-- What is read as an exponent is written as one. -/
theorem readExponent?_eq_some_iff :
  readExponent? t = some exponent ↔ IsExponent exponent t
  := by
  constructor
  · intro h
    cases t with
    | nil =>
      cases h
      exact .none
    | cons mark t =>
      obtain ⟨negative, sign, u, hr, rfl, hs⟩ := exists_isSign t
      rw [readExponent?_cons, hr] at h
      split at h
      case isTrue hd =>
        cases h
        exact .digits hd.1 hs ⟨hd.2.1, List.all_eq_true.mp hd.2.2⟩
      case isFalse => contradiction
  · intro h
    cases h with
    | none => rfl
    | digits hm hs hd =>
      rw [readExponent?_cons, readSign_append hs hd.not_startsWithSign,
        if_pos ⟨hm, hd.1, List.all_eq_true.mpr hd.2⟩]

/-- An exponent goes on neither digits nor a point. -/
theorem IsExponent.head? (h : IsExponent exponent t) :
  ∀ c ∈ t.head?, c.isDigit = false ∧ c ≠ '.'
  := by
  intro c hc
  cases h with
  | none => contradiction
  | digits hm =>
    cases hc
    obtain rfl | rfl := hm <;> decide

/-- The characters of a numeral besides its digits. -/
def marks : List Char :=
  ['+', '-', '.', 'e', 'E']

theorem IsSign.mem_marks (h : IsSign negative t) :
  ∀ c ∈ t, c ∈ marks
  := by
  cases h <;> simp [marks]

theorem IsExponent.isDigit_or_mem (h : IsExponent exponent t) :
  ∀ c ∈ t, c.isDigit = true ∨ c ∈ marks
  := by
  intro c hc
  cases h with
  | none => contradiction
  | digits hm hs hd =>
    obtain rfl | hc := List.mem_cons.mp hc
    · right
      obtain rfl | rfl := hm <;> decide
    · obtain hc | hc := List.mem_append.mp hc
      · exact .inr (hs.mem_marks c hc)
      · exact .inl (hd.2 c hc)

/-! ### Digits and the point -/

/-- What starts with no point has no digits after one. -/
theorem readFraction_of_head? (h : ∀ c ∈ t.head?, c ≠ '.') :
  readFraction t = ([], t)
  := by
  unfold readFraction
  split
  · exact absurd rfl (h '.' rfl)
  · rfl

/-- The digits before and after a point are read up to a character that goes on neither. -/
theorem IsSignificand.read_append (h : IsSignificand whole fraction significand)
    (ht : ∀ c ∈ t.head?, c.isDigit = false ∧ c ≠ '.') :
  ∃ u, (significand ++ t).span Char.isDigit = (whole, u) ∧ readFraction u = (fraction, t)
  := by
  have hd : ∀ c ∈ t.head?, c.isDigit = false := fun c hc => (ht c hc).1
  have point {w f : Text} (hw : ∀ c ∈ w, c.isDigit = true) (hf : ∀ c ∈ f, c.isDigit = true) :
      ∃ u, (w ++ '.' :: f ++ t).span Char.isDigit = (w, u) ∧ readFraction u = (f, t) := by
    refine ⟨'.' :: (f ++ t), ?_, span_append hf hd⟩
    rw [List.append_assoc]
    apply span_append hw
    rintro c ⟨⟩
    rfl
  cases h with
  | whole hw => exact ⟨t, span_append hw.2 hd, readFraction_of_head? fun c hc => (ht c hc).2⟩
  | wholePoint hw => exact point hw.2 (by simp)
  | pointFraction hf => exact point (w := []) (by simp) hf.2
  | wholePointFraction hw hf => exact point hw.2 hf.2

theorem IsSignificand.isDigit_or_mem (h : IsSignificand whole fraction significand) :
  ∀ c ∈ significand, c.isDigit = true ∨ c ∈ marks
  := by
  intro c hc
  have hp : '.' ∈ marks := by decide
  cases h with
  | whole hw => exact .inl (hw.2 c hc)
  | wholePoint hw =>
    obtain hc | hc := List.mem_append.mp hc
    · exact .inl (hw.2 c hc)
    · exact .inr (List.mem_singleton.mp hc ▸ hp)
  | pointFraction hf =>
    obtain rfl | hc := List.mem_cons.mp hc
    · exact .inr hp
    · exact .inl (hf.2 c hc)
  | wholePointFraction hw hf =>
    obtain hc | hc := List.mem_append.mp hc
    · exact .inl (hw.2 c hc)
    · obtain rfl | hc := List.mem_cons.mp hc
      · exact .inr hp
      · exact .inl (hf.2 c hc)

/-- What is read as digits before and after a point is written so. -/
theorem exists_isSignificand
    (hn : ¬ ((t.span Char.isDigit).1 = [] ∧ (readFraction (t.span Char.isDigit).2).1 = [])) :
  ∃ significand, t = significand ++ (readFraction (t.span Char.isDigit).2).2
    ∧ IsSignificand (t.span Char.isDigit).1 (readFraction (t.span Char.isDigit).2).1 significand
  := by
  have ht : t = (t.span Char.isDigit).1 ++ (t.span Char.isDigit).2 := by
    rw [List.span_eq_takeWhile_dropWhile, List.takeWhile_append_dropWhile]
  have hw : ∀ c ∈ (t.span Char.isDigit).1, c.isDigit = true := by
    rw [List.span_eq_takeWhile_dropWhile]
    exact fun c => List.mem_takeWhile_imp
  generalize (t.span Char.isDigit).1 = whole at hn ht hw ⊢
  generalize (t.span Char.isDigit).2 = u at hn ht ⊢
  subst ht
  unfold readFraction at hn ⊢
  split at hn
  next u =>
    rw [List.span_eq_takeWhile_dropWhile] at hn ⊢
    have hf : ∀ c ∈ u.takeWhile Char.isDigit, c.isDigit = true := fun c => List.mem_takeWhile_imp
    have hu := List.takeWhile_append_dropWhile (p := Char.isDigit) (l := u)
    generalize u.takeWhile Char.isDigit = fraction at hn hf hu ⊢
    refine ⟨whole ++ '.' :: fraction, by simp [hu], ?_⟩
    by_cases hwn : whole = []
    · subst hwn
      exact .pointFraction ⟨fun hfn => hn ⟨rfl, hfn⟩, hf⟩
    · by_cases hfn : fraction = []
      · subst hfn
        exact .wholePoint ⟨hwn, hw⟩
      · exact .wholePointFraction ⟨hwn, hw⟩ ⟨hfn, hf⟩
  next => exact ⟨whole, rfl, .whole ⟨fun hwn => hn ⟨hwn, rfl⟩, hw⟩⟩

/-! ### Numerals -/

/-- A numeral is written with digits, signs, a point and a mark. -/
theorem IsWrittenAs.isDigit_or_mem {n : Numeral} (h : n.IsWrittenAs t) :
  ∀ c ∈ t, c.isDigit = true ∨ c ∈ marks
  := by
  obtain ⟨sign, significand, u, rfl, hs, hd, he⟩ := h
  intro c hc
  obtain hc | hc := List.mem_append.mp hc
  · obtain hc | hc := List.mem_append.mp hc
    · exact .inr (hs.mem_marks c hc)
    · exact hd.isDigit_or_mem c hc
  · exact he.isDigit_or_mem c hc

theorem read?_eq (t : Text) :
  read? t
    = let u := (readSign t).2.span Char.isDigit
      let v := readFraction u.2
      if u.1 = [] ∧ v.1 = [] then
        none
      else
        (readExponent? v.2).map fun exponent => ⟨(readSign t).1, u.1, v.1, exponent⟩
  := rfl

/-- What is read as a numeral is what one is written as. -/
theorem read?_eq_some_iff {n : Numeral} :
  read? t = some n ↔ n.IsWrittenAs t
  := by
  constructor
  · intro h
    obtain ⟨negative, sign, u, hr, rfl, hs⟩ := exists_isSign t
    rw [read?_eq, hr] at h
    dsimp only at h
    split at h
    case isTrue => contradiction
    case isFalse hn =>
      obtain ⟨significand, hu, hd⟩ := exists_isSignificand hn
      obtain ⟨exponent, he, rfl⟩ := Option.map_eq_some_iff.mp h
      refine ⟨sign, significand, _, ?_, hs, hd, readExponent?_eq_some_iff.mp he⟩
      rw [List.append_assoc, ← hu]
  · rintro ⟨sign, significand, u, rfl, hs, hd, he⟩
    obtain ⟨v, hspan, hf⟩ := hd.read_append he.head?
    rw [List.append_assoc, read?_eq, readSign_append hs (hd.not_startsWithSign u)]
    simp only [hspan, hf, if_neg hd.not_nil, readExponent?_eq_some_iff.mpr he, Option.map_some]

end Numeral

namespace Number

/-- A word denotes no finite number. -/
theorem isFinite_of_readWord? {t : Text} {x : Float} (h : readWord? t = some x) :
  x.isFinite = false
  := by
  have hr : readWord? t = (ofWord? ((Numeral.readSign t).2.map Char.toLower)).map fun x =>
      if (Numeral.readSign t).1 then -x else x := rfl
  rw [hr] at h
  obtain ⟨y, hy, rfl⟩ := Option.map_eq_some_iff.mp h
  have hw : y = infinity ∨ y = nan := by
    rw [ofWord?] at hy
    split at hy
    · exact .inl (Option.some.inj hy).symm
    · split at hy
      · exact .inr (Option.some.inj hy).symm
      · contradiction
  generalize (Numeral.readSign t).1 = negative
  obtain rfl | rfl := hw <;> cases negative <;> decide +kernel

/-- What is read as a finite number is a numeral. -/
theorem read?_eq_some_iff_of_isFinite {t : Text} {x : Float} (hx : x.isFinite = true) :
  read? t = some x ↔ ∃ n : Numeral, n.IsWrittenAs t ∧ n.toFloat = x
  := by
  simp only [← Numeral.read?_eq_some_iff]
  rw [read?]
  split
  next n hn =>
    rw [Option.some.injEq]
    constructor
    · intro h
      exact ⟨n, hn, h⟩
    · rintro ⟨n', hn', h⟩
      rw [hn] at hn'
      cases hn'
      apply h
  next hn =>
    constructor
    · intro h
      rw [isFinite_of_readWord? h] at hx
      contradiction
    · rintro ⟨n, hn', -⟩
      rw [hn] at hn'
      contradiction

end Number

end SliderCalculator
