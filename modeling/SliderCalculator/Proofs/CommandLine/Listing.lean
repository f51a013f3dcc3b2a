import SliderCalculator.Proofs.Assignment.Grammar
import SliderCalculator.Proofs.CommandLine.Arguments
import SliderCalculator.Proofs.CommandLine.Dialogue
import SliderCalculator.Proofs.Session.Operands
import SliderCalculator.Proofs.Session.Presets

/-!
# Lists of variables are read again

The line that lists the variables in a dialogue consists of assignments with a comma and a space
between them. Divided at these it gives back the variables with their values, bit for bit, the
negative zero among them: `read_divide_showVariables`. The variables of a dialogue are always such
that they can be assigned.
-/

namespace SliderCalculator

open Number

/-! ### Texts with separators -/

namespace Text

/-- Divides a text at each comma that a space follows. -/
def divide : Text → List Text
  | [] => [[]]
  | ',' :: ' ' :: t => [] :: divide t
  | c :: t => (divide t).modifyHead (c :: ·)

variable {t : Text}

theorem divide_cons {c : Char} (hc : c ≠ ',') (t : Text) :
  divide (c :: t) = (divide t).modifyHead (c :: ·)
  := by
  rw [divide]
  intro u hu
  apply absurd hu hc

/-- A text without commas goes to the first part. -/
theorem divide_append (h : ',' ∉ t) (u : Text) :
  divide (t ++ u) = (divide u).modifyHead (t ++ ·)
  := by
  induction t with
  | nil =>
    have hid : (([] ++ ·) : Text → Text) = id := rfl
    rw [List.nil_append, hid, List.modifyHead_id]
    rfl
  | cons c t ih =>
    rw [List.mem_cons, not_or] at h
    rw [List.cons_append, divide_cons (Ne.symm h.1), ih h.2, List.modifyHead_modifyHead]
    rfl

/-- Texts without commas are the parts of what they make together with separators between them. -/
theorem divide_intercalate {ts : List Text} (hn : ts ≠ []) (h : ∀ t ∈ ts, ',' ∉ t) :
  divide (", ".toList.intercalate ts) = ts
  := by
  induction ts with
  | nil => contradiction
  | cons t ts ih =>
    obtain ⟨ht, hts⟩ := List.forall_mem_cons.mp h
    cases ts with
    | nil =>
      have hd := divide_append ht []
      rw [List.append_nil] at hd
      rw [List.intercalate_singleton, hd]
      simp [divide]
    | cons u ts =>
      have hd : divide (", ".toList ++ ", ".toList.intercalate (u :: ts)) = [] :: u :: ts :=
        congrArg ([] :: ·) (ih (List.cons_ne_nil u ts) hts)
      rw [List.intercalate_cons_cons, List.append_assoc, divide_append ht, hd]
      simp

/-- What texts make together with separators between them has no other characters. -/
theorem mem_of_mem_intercalate {separator : Text} {ts : List Text} {c : Char}
    (h : c ∈ separator.intercalate ts) :
  c ∈ separator ∨ ∃ t ∈ ts, c ∈ t
  := by
  induction ts with
  | nil => contradiction
  | cons t ts ih =>
    cases ts with
    | nil =>
      rw [List.intercalate_singleton] at h
      exact .inr ⟨t, List.mem_cons_self, h⟩
    | cons u ts =>
      rw [List.intercalate_cons_cons] at h
      obtain h | h := List.mem_append.mp h
      · obtain h | h := List.mem_append.mp h
        · exact .inr ⟨t, List.mem_cons_self, h⟩
        · exact .inl h
      · obtain h | ⟨v, hv, h⟩ := ih h
        · exact .inl h
        · exact .inr ⟨v, List.mem_cons_of_mem _ hv, h⟩

end Text

/-! ### Assignments that are written are read -/

namespace Assignment

variable {a : Assignment}

/-- The text of an assignment writes it. -/
theorem IsValid.isWrittenAs_text (h : a.IsValid) :
  a.IsWrittenAs a.text
  := by
  have h0 : 0 ≤ a.value := (zero_le_iff h.isFinite).mpr h.not_lt
  obtain ⟨n, hw, hr⟩ :=
    (read?_eq_some_iff_of_isFinite h.isFinite).mp (Number.read?_text h.isFinite h0)
  refine ⟨h, [a.name, ' '], ' ' :: Number.text a.value, _, n, rfl, ?_, ?_, hw,
    Numeral.toFloat_eq_iff.mp hr⟩
  · exact ⟨[], [' '], rfl, rfl, rfl⟩
  · exact ⟨[' '], [], rfl, rfl, (List.append_nil _).symm⟩

theorem IsValid.read_text (h : a.IsValid) :
  read a.text = .ok a
  := by
  apply read_eq_ok_iff.mpr h.isWrittenAs_text

/-- The text of an assignment has neither commas nor line feeds. -/
theorem IsValid.not_mem_text (h : a.IsValid) {c : Char} (hc : c = ',' ∨ c = '\n') :
  c ∉ a.text
  := by
  have hname : c ≠ a.name := by
    rintro rfl
    have ha := h.isAlpha
    obtain hc | hc := hc <;> rw [hc] at ha <;> contradiction
  have heq : c ∉ " = ".toList := by obtain rfl | rfl := hc <;> decide
  rw [text, List.mem_cons, List.mem_append]
  rintro (hm | hm | hm)
  · apply hname hm
  · apply heq hm
  · obtain hd | rfl | rfl := Number.mem_text h.isFinite hm
    · obtain rfl | rfl := hc <;> contradiction
    · revert hc
      decide
    · revert hc
      decide

/-- Assignments on a line are read when the line is divided. -/
theorem read_divide {as : List Assignment} (hn : as ≠ []) (h : ∀ a ∈ as, a.IsValid) :
  (Text.divide (", ".toList.intercalate (as.map text))).map read = as.map .ok
  := by
  rw [Text.divide_intercalate]
  · rw [List.map_map]
    apply List.map_congr_left
    exact fun a ha => (h a ha).read_text
  · simpa using hn
  · intro t ht
    obtain ⟨a, ha, rfl⟩ := List.mem_map.mp ht
    apply (h a ha).not_mem_text (.inl rfl)

/-- Assignments on a line do not end the line. -/
theorem lineFeed_not_mem {as : List Assignment} (h : ∀ a ∈ as, a.IsValid) :
  '\n' ∉ ", ".toList.intercalate (as.map text)
  := by
  intro hm
  obtain hm | ⟨t, ht, hm⟩ := Text.mem_of_mem_intercalate hm
  · revert hm
    decide
  · obtain ⟨a, ha, rfl⟩ := List.mem_map.mp ht
    apply (h a ha).not_mem_text (.inr rfl) hm

end Assignment

/-! ### Variables that can be assigned -/

/-- Whether all names are letters, and all values are finite and not below zero. -/
def Variables.IsAssignable (v : Variables) : Prop :=
  ∀ e ∈ v.entries, Assignment.IsValid ⟨e.1, e.2⟩

namespace Session

variable {s : Session}

/-- The names of variables stay letters. -/
theorem isAlpha_step (h : ∀ c ∈ s.values.names, c.isAlpha = true) (t : Step) :
  ∀ c ∈ (s.step t).1.values.names, c.isAlpha = true
  := by
  cases ht : t.typed? with
  | none =>
    rw [names_step ht]
    apply h
  | some f =>
    rw [values_step_of_typed? ht, Variables.names_detect]
    exact fun c hc => (Formula.mem_letters.mp hc).2

theorem isAlpha_after (h : ∀ c ∈ s.values.names, c.isAlpha = true) (ts : List Step) :
  ∀ c ∈ (s.after ts).values.names, c.isAlpha = true
  := by
  induction ts using List.reverseRecOn with
  | nil => apply h
  | append_singleton ts t ih =>
    rw [after_concat]
    apply isAlpha_step ih

/-- The variables of a session whose presets are letters can be assigned. -/
theorem isAssignable_after {slider : Slider} {presets : Variables}
    (h : ∀ c ∈ presets.names, c.isAlpha = true) (ts : List Step) :
  ((withVariables slider presets).after ts).values.IsAssignable
  := by
  have hp : (withVariables slider presets).values.IsPlain := by
    apply Slider.isPlain_snapAll
    exact fun e he => h _ (List.mem_map_of_mem he)
  intro e he
  have hx := Variables.get?_eq_some_iff.mpr he
  have hf := isFinite_of_get?_after hx
  constructor
  · apply isAlpha_after hp.isAlpha ts e.1 (Variables.mem_names_of_get? hx)
  · apply hf
  · apply (zero_le_iff hf).mp (zero_le_of_get?_after hx)

end Session

namespace CommandLine

/-! ### Assigned names -/

/-- Whether words give values to letters only. -/
def Draft.AssignsLetters (d : Draft) : Prop :=
  ∀ a ∈ d.assignments, a.name.isAlpha = true

/-- Every item assigns a value to a letter, if to anything. -/
theorem Item.addTo_assignsLetters {i : Item} {d d' : Draft} (h : i.addTo d = .ok d')
    (hd : d.AssignsLetters) :
  d'.AssignsLetters
  := by
  cases i with
  | formula word =>
    rw [addTo, Draft.addFormula] at h
    split at h
    · contradiction
    · cases h
      apply hd
  | value o text =>
    cases o with
    | set =>
      rw [addTo, Draft.addValue] at h
      split at h
      case h_1 a ha =>
        cases h
        intro b hb
        obtain hb | hb := List.mem_append.mp hb
        · apply hd b hb
        · rw [List.mem_singleton.mp hb]
          apply (Assignment.read?_eq_some_iff_isWrittenAs.mp ha).isAlpha
      case h_2 => contradiction
    | minimum | maximum | step =>
      rw [addTo, Draft.addValue] at h
      generalize Draft.readNumber _ text = r at h
      cases r with
      | error => contradiction
      | ok x =>
        cases h
        apply hd
  | letter c =>
    simp only [addTo, Draft.addLetter] at h
    split at h
    case h_1 =>
      split at h
      · contradiction
      · cases h
        apply hd
    all_goals contradiction
  | fault => contradiction

theorem foldlM_addTo_assignsLetters {items : List Item} {d d' : Draft}
    (h : items.foldlM Item.addTo d = .ok d') (hd : d.AssignsLetters) :
  d'.AssignsLetters
  := by
  induction items generalizing d with
  | nil =>
    cases h
    apply hd
  | cons i items ih =>
    rw [List.foldlM_cons] at h
    cases hi : i.addTo d with
    | error e =>
      rw [hi] at h
      contradiction
    | ok e =>
      rw [hi] at h
      apply ih h (Item.addTo_assignsLetters hi hd)

/-- The names that arguments give values to are letters. -/
theorem isAlpha_of_readArguments {words : List Text} {o : Options}
    (h : readArguments words = .ok o) :
  ∀ a ∈ o.assignments, a.name.isAlpha = true
  := by
  obtain ⟨items, hi⟩ := exists_askFor words
  rw [readArguments, hi.readWords_eq] at h
  cases hd : items.foldlM Item.addTo Draft.empty with
  | error e =>
    rw [hd] at h
    contradiction
  | ok d =>
    rw [hd] at h
    cases h
    apply foldlM_addTo_assignsLetters hd
    simp [Draft.AssignsLetters, Draft.empty]

/-! ### Lists of variables -/

/-- The variables of a dialogue can be assigned. -/
theorem isAssignable_of_start {arguments : List Text} {level : LogLevel} {s : Session}
    (h : start arguments = .dialogue level s) (ts : List Step) :
  (s.after ts).values.IsAssignable
  := by
  rw [start] at h
  split at h
  case h_1 => contradiction
  case h_2 o ho =>
    split at h
    case h_1 => contradiction
    case h_2 =>
      split at h
      case h_1 => contradiction
      case h_2 =>
        cases h
        apply Session.isAssignable_after
        intro c hc
        obtain ⟨e, he, rfl⟩ := List.mem_map.mp (Variables.mem_names_ofList.mp hc)
        obtain ⟨a, ha, rfl⟩ := List.mem_map.mp he
        apply isAlpha_of_readArguments ho a ha

/-- The line that lists variables, divided at the commas that a space follows, is read as the
variables with their values in their order, if they can be assigned. In a dialogue they always
can. -/
theorem read_divide_showVariables :
  (∀ values : Variables, values.entries ≠ [] → values.IsAssignable →
    ∃ line, showVariables values = line ++ ['\n'] ∧ '\n' ∉ line
      ∧ line.divide.map Assignment.read = values.entries.map fun e => .ok ⟨e.1, e.2⟩)
    ∧ ∀ arguments level s, start arguments = .dialogue level s →
      ∀ lines : List Text, (s.after (lines.map Step.ofLine)).values.IsAssignable
  := by
  refine ⟨?_, fun _ _ _ h lines => isAssignable_of_start h _⟩
  intro values hne h
  have hv : ∀ a ∈ values.entries.map fun e => (⟨e.1, e.2⟩ : Assignment), a.IsValid := by
    intro a ha
    obtain ⟨e, he, rfl⟩ := List.mem_map.mp ha
    apply h e he
  refine ⟨_, ?_, Assignment.lineFeed_not_mem hv, ?_⟩
  · rw [showVariables]
    split
    case h_1 he => exact absurd he hne
    case h_2 he =>
      rw [he, List.map_map]
      rfl
  · rw [Assignment.read_divide _ hv, List.map_map]
    · rfl
    · simpa using hne

/-- A fraction and the negative zero on one line. -/
theorem read_divide_showVariables_negativeZero :
  let values := Variables.ofList [('b', 2.5), ('a', -0.0)]
  values.entries ≠ [] ∧ values.IsAssignable
    ∧ showVariables values = "b = 2.5, a = -0\n".toList
    ∧ (Text.divide "b = 2.5, a = -0".toList).map Assignment.read
      = [.ok ⟨'b', 2.5⟩, .ok ⟨'a', -0.0⟩]
  := by
  intro values
  have he : values.entries = [('b', 2.5), ('a', -0.0)] := by decide +kernel
  have hne : values.entries ≠ [] := by simp [he]
  have hv : values.IsAssignable := by
    rw [Variables.IsAssignable, he]
    simp only [List.forall_mem_cons]
    refine ⟨⟨?_, ?_, ?_⟩, ⟨?_, ?_, ?_⟩, List.forall_mem_nil _⟩ <;> decide +kernel
  have hs : showVariables values = "b = 2.5, a = -0\n".toList := by decide +kernel
  refine ⟨hne, hv, hs, ?_⟩
  obtain ⟨line, hl, -, hr⟩ := read_divide_showVariables.1 values hne hv
  have hl : line = "b = 2.5, a = -0".toList := by
    rw [hs] at hl
    apply (List.append_cancel_right hl).symm
  rw [hl, he] at hr
  apply hr

end CommandLine

end SliderCalculator
