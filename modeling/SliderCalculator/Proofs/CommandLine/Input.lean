import SliderCalculator.CommandLine.Input

/-!
# Lines and their bytes

An input is divided into lines at its line feeds, and in one way only: `isDividedInto_iff`. What
comes after a line feed does not change the lines before it. The bytes of a line are those of one
text or of none: `decode?_eq_some_iff`.
-/

namespace SliderCalculator.CommandLine

variable {input line rest : List UInt8} {ls : List (List UInt8)}

/-! ### Lines -/

/-- Whether an input consists of lines. Each one is ended by a line feed or by a carriage return and
a line feed, except that the last one may lack an end. -/
inductive IsDividedInto : List UInt8 → List (List UInt8) → Prop where
  | nil : IsDividedInto [] []
  | unended {line : List UInt8} (hn : line ≠ []) (hl : lineFeed ∉ line) : IsDividedInto line [line]
  | ended {line rest : List UInt8} {ls : List (List UInt8)} (hl : lineFeed ∉ line)
      (hc : line.getLast? ≠ some carriageReturn) (h : IsDividedInto rest ls) :
      IsDividedInto (line ++ lineFeed :: rest) (line :: ls)
  | endedByReturn {line rest : List UInt8} {ls : List (List UInt8)} (hl : lineFeed ∉ line)
      (h : IsDividedInto rest ls) :
      IsDividedInto (line ++ carriageReturn :: lineFeed :: rest) (line :: ls)

/-- Bytes up to a line feed belong to one line. -/
theorem linesAfter_append (hl : lineFeed ∉ line) (read rest : List UInt8) :
  linesAfter read (line ++ rest) = linesAfter (line.reverse ++ read) rest
  := by
  induction line generalizing read with
  | nil => rfl
  | cons b bytes ih =>
    rw [List.mem_cons, not_or] at hl
    rw [List.cons_append, linesAfter, if_neg (Ne.symm hl.1), ih hl.2, List.reverse_cons,
      List.append_assoc, List.singleton_append]

/-- A line ends where its line feed is. -/
theorem lines_append_lineFeed (hl : lineFeed ∉ line) (rest : List UInt8) :
  lines (line ++ lineFeed :: rest) = endLine line.reverse :: lines rest
  := by
  rw [lines, linesAfter_append hl, List.append_nil, linesAfter, if_pos rfl, lines]

/-- Only a carriage return at its end is not part of a line. -/
theorem endLine_reverse (hc : line.getLast? ≠ some carriageReturn) :
  endLine line.reverse = line
  := by
  cases h : line.reverse with
  | nil => exact (List.reverse_eq_nil_iff.mp h).symm
  | cons b bytes =>
    have hb : line.getLast? = some b := by
      rw [← List.head?_reverse, h]
      rfl
    rw [endLine, if_neg]
    · rw [← h, List.reverse_reverse]
    · rintro rfl
      exact hc hb

theorem IsDividedInto.lines_eq (h : IsDividedInto input ls) :
  lines input = ls
  := by
  induction h with
  | nil => rfl
  | @unended line hn hl =>
    rw [lines, ← List.append_nil line, linesAfter_append hl, linesAfter]
    simp [hn]
  | ended hl hc h ih => rw [lines_append_lineFeed hl, ih, endLine_reverse hc]
  | @endedByReturn line rest ls hl h ih =>
    have hr : lineFeed ∉ line ++ [carriageReturn] := by
      simpa [lineFeed, carriageReturn] using hl
    rw [List.append_cons, lines_append_lineFeed hr, ih]
    simp [endLine]

/-- A line feed ends the bytes that have been read of a line. -/
theorem IsDividedInto.endLine {read : List UInt8} (hl : lineFeed ∉ read)
    (h : IsDividedInto rest ls) :
  IsDividedInto (read.reverse ++ lineFeed :: rest) (endLine read :: ls)
  := by
  cases read with
  | nil => exact .ended (by simp) (by simp) h
  | cons b bytes =>
    rw [CommandLine.endLine]
    split
    case isTrue hb =>
      subst hb
      rw [List.reverse_cons, List.append_assoc]
      apply IsDividedInto.endedByReturn _ h
      rw [List.mem_reverse]
      exact fun hm => hl (List.mem_cons_of_mem _ hm)
    case isFalse hb =>
      apply IsDividedInto.ended _ _ h
      · rwa [List.mem_reverse]
      · simpa using hb

/-- What has been read of a line and the rest of an input are divided into the lines. -/
theorem isDividedInto_linesAfter {read : List UInt8} (hl : lineFeed ∉ read)
    (input : List UInt8) :
  IsDividedInto (read.reverse ++ input) (linesAfter read input)
  := by
  induction input generalizing read with
  | nil =>
    rw [linesAfter, List.append_nil]
    cases read with
    | nil => exact .nil
    | cons b bytes => exact .unended (by simp) (by rwa [List.mem_reverse])
  | cons b bytes ih =>
    rw [linesAfter]
    split
    case isTrue hb =>
      subst hb
      apply IsDividedInto.endLine hl
      exact ih List.not_mem_nil
    case isFalse hb =>
      rw [List.append_cons, ← List.reverse_cons]
      apply ih
      simpa [Ne.symm hb] using hl

/-- An input is divided into its lines and into no others. -/
theorem isDividedInto_iff :
  IsDividedInto input ls ↔ lines input = ls
  := by
  constructor
  · apply IsDividedInto.lines_eq
  · rintro rfl
    exact isDividedInto_linesAfter List.not_mem_nil input

/-- The lines up to a line feed do not depend on what follows it. -/
theorem lines_append {before : List UInt8} (h : before.getLast? = some lineFeed)
    (rest : List UInt8) :
  lines (before ++ rest) = lines before ++ lines rest
  := by
  suffices ∀ read, linesAfter read (before ++ rest) = linesAfter read before ++ lines rest from
    this []
  induction before with
  | nil => contradiction
  | cons b bytes ih =>
    intro read
    rw [List.cons_append, linesAfter, linesAfter]
    cases bytes with
    | nil =>
      obtain rfl : b = lineFeed := by simpa using h
      rfl
    | cons b' bytes =>
      have ih := ih h
      split
      · rw [ih, List.cons_append]
      · rw [ih]

/-! ### Bytes of texts -/

/-- The bytes of a text. -/
def encode (t : Text) : List UInt8 :=
  t.flatMap String.utf8EncodeChar

theorem encode_eq_data (t : Text) :
  encode t = t.utf8Encode.data.toList
  := by
  rw [List.utf8Encode, List.data_toByteArray, encode]

/-- A line is a text when its bytes are those of the text. -/
theorem decode?_eq_some_iff {t : Text} :
  decode? line = some t ↔ line = encode t
  := by
  rw [decode?, Option.map_eq_some_iff, encode_eq_data]
  constructor
  · rintro ⟨s, hs, rfl⟩
    rw [String.fromUTF8?] at hs
    split at hs
    case isTrue hv =>
      cases hs
      rw [String.utf8Encode_toList]
      rfl
    case isFalse => contradiction
  · rintro rfl
    refine ⟨String.ofList t, ?_, String.toList_ofList⟩
    rw [String.fromUTF8?, dif_pos ByteArray.isValidUTF8_utf8Encode]
    rfl

theorem decode?_encode (t : Text) :
  decode? (encode t) = some t
  := decode?_eq_some_iff.mpr rfl

theorem decode?_eq_none_iff :
  decode? line = none ↔ ∀ t, line ≠ encode t
  := by
  simp only [Option.eq_none_iff_forall_ne_some, ne_eq, decode?_eq_some_iff]

end SliderCalculator.CommandLine
