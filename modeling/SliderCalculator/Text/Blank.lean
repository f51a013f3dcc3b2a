import SliderCalculator.Text.Ascii

/-!
# Blanks

The blanks are the characters with the property `White_Space`. Blank text consists of
blanks, and trimming takes the blanks off both ends.
-/

namespace SliderCalculator.Text

/-- The first and the last code point of each run of characters with the property
`White_Space`. -/
def blankRuns : List (Nat × Nat) :=
  [(0x0009, 0x000D), (0x0020, 0x0020), (0x0085, 0x0085), (0x00A0, 0x00A0),
   (0x1680, 0x1680), (0x2000, 0x200A), (0x2028, 0x2029), (0x202F, 0x202F),
   (0x205F, 0x205F), (0x3000, 0x3000)]

/-- Whether a character is a blank. -/
def isBlank (c : Char) : Bool :=
  blankRuns.any fun run => decide (run.1 ≤ c.toNat) && decide (c.toNat ≤ run.2)

/-- A letter or digit is not a blank. -/
theorem isBlank_of_isAlphanum {c : Char} (h : c.isAlphanum = true) :
  isBlank c = false
  := by
  rw [isAlphanum_iff, isAlpha_iff, isDigit_iff] at h
  simp only [isBlank, blankRuns, List.any_cons, List.any_nil, Bool.or_false,
    Bool.or_eq_false_iff, Bool.and_eq_false_iff, decide_eq_false_iff_not]
  omega

/-- Whether every character of a text is a blank. -/
def isAllBlank (t : Text) : Bool :=
  t.all isBlank

/-- The text without the blanks that it starts with. -/
def trimStart (t : Text) : Text :=
  t.dropWhile isBlank

/-- The text without the blanks that it ends with. -/
def trimEnd (t : Text) : Text :=
  (t.reverse.dropWhile isBlank).reverse

/-- The text without the blanks at its two ends. -/
def trim (t : Text) : Text :=
  trimEnd (trimStart t)

/-- The text without its blanks. -/
def withoutBlanks (t : Text) : Text :=
  t.filter fun c => !isBlank c

end SliderCalculator.Text
