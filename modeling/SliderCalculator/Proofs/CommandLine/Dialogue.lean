import SliderCalculator.CommandLine.Run
import SliderCalculator.Proofs.CommandLine.Input
import SliderCalculator.Proofs.Session.Idle

/-!
# Dialogues are sessions

A dialogue goes over the lines of its input up to the first one that is blank or is not text. Each
line is a step of one session, and what is written is a report of the session after the step, with a
prompt before each line: `run_dialogue`.
-/

namespace SliderCalculator.CommandLine

/-! ### The lines that are answered -/

/-- Whether texts are the lines that a dialogue answers before it stops, and whether it stops at a
line that is not text. -/
inductive Hears : List (List UInt8) → List Text → Bool → Prop where
  /-- There is no other line. -/
  | exhausted : Hears [] [] false
  | blank {t : Text} {ls : List (List UInt8)} (h : ∀ c ∈ t, Text.isBlank c = true) :
      Hears (encode t :: ls) [] false
  | unreadable {line : List UInt8} {ls : List (List UInt8)} (h : ∀ t, line ≠ encode t) :
      Hears (line :: ls) [] true
  | answered {t : Text} {ls : List (List UInt8)} {ts : List Text} {unreadable : Bool}
      (h : ∃ c ∈ t, Text.isBlank c = false) (hr : Hears ls ts unreadable) :
      Hears (encode t :: ls) (t :: ts) unreadable

variable {ls : List (List UInt8)} {ts : List Text} {unreadable : Bool}

theorem isAllBlank_eq_false_iff {t : Text} :
  t.isAllBlank = false ↔ ∃ c ∈ t, Text.isBlank c = false
  := List.all_eq_false.trans (by simp only [Bool.not_eq_true])

/-- Any lines are answered up to some point. -/
theorem exists_hears (ls : List (List UInt8)) :
  ∃ ts unreadable, Hears ls ts unreadable
  := by
  induction ls with
  | nil => exact ⟨[], false, .exhausted⟩
  | cons line ls ih =>
    cases hd : decode? line with
    | none => exact ⟨[], true, .unreadable (decode?_eq_none_iff.mp hd)⟩
    | some t =>
      obtain rfl := decode?_eq_some_iff.mp hd
      cases hb : t.isAllBlank with
      | true => exact ⟨[], false, .blank (List.all_eq_true.mp hb)⟩
      | false =>
        obtain ⟨ts, unreadable, h⟩ := ih
        exact ⟨t :: ts, unreadable, .answered (isAllBlank_eq_false_iff.mp hb) h⟩

/-- What follows a blank line is not answered. -/
theorem Hears.append (h : Hears ls ts unreadable) {t : Text} (ht : encode t ∈ ls)
    (hb : ∀ c ∈ t, Text.isBlank c = true) (ls' : List (List UInt8)) :
  Hears (ls ++ ls') ts unreadable
  := by
  induction h with
  | exhausted => contradiction
  | blank h => exact .blank h
  | unreadable h => exact .unreadable h
  | @answered u ls ts unreadable h hr ih =>
    apply Hears.answered h
    apply ih
    apply (List.mem_cons.mp ht).resolve_left
    intro he
    have hu := decode?_encode u
    rw [← he, decode?_encode] at hu
    cases hu
    obtain ⟨c, hc, hf⟩ := h
    rw [hb c hc] at hf
    contradiction

/-- The dialogue over lines is a run of the session through the lines that are answered. -/
theorem Hears.converse_eq (h : Hears ls ts unreadable) (s : Session) :
  converse s (ls.map decode?)
    = { output := (s.run (ts.map Step.ofLine)).flatMap fun p => report p.1 p.2 ++ prompt
        events := (s.moments (ts.map Step.ofLine)).flatMap fun m => m.1.events m.2
        unreadable }
  := by
  induction h generalizing s with
  | exhausted => rfl
  | blank h =>
    have hb : Text.isAllBlank _ = true := List.all_eq_true.mpr h
    rw [List.map_cons, decode?_encode, converse, respond, if_pos hb]
    rfl
  | unreadable h =>
    rw [List.map_cons, decode?_eq_none_iff.mpr h]
    rfl
  | @answered t ls ts unreadable h hr ih =>
    have hb : ¬ t.isAllBlank = true := by
      rw [isAllBlank_eq_false_iff.mpr h]
      simp
    simp only [List.map_cons, decode?_encode, converse, respond, if_neg hb, ih]
    rfl

/-! ### What is written -/

/-- The line that lists variables as `name = value`. There is none without variables. -/
def variableLines (values : Variables) : List Text :=
  if values.entries.isEmpty then
    []
  else
    [", ".toList.intercalate (values.entries.map fun e => e.1 :: (" = ".toList ++ Number.text e.2))]

/-- The line with the number, or with what is wrong. -/
def resultLine : Except Error Float → Text
  | .ok x => Number.text x
  | .error e => "Error, ".toList ++ e.message

/-- What lines are written as. -/
def writeLines (ls : List Text) : Text :=
  ls.flatMap (· ++ ['\n'])

theorem showVariables_eq (values : Variables) :
  showVariables values = writeLines (variableLines values)
  := by
  rw [showVariables, variableLines, writeLines]
  split
  case h_1 he =>
    rw [he]
    rfl
  case h_2 he =>
    rw [he, List.isEmpty_cons, if_neg Bool.false_ne_true, List.flatMap_singleton]
    rfl

theorem showResult_eq (result : Except Error Float) :
  showResult result = resultLine result ++ ['\n']
  := by
  cases result <;> rfl

/-- A report lists the variables, if there are any, and gives the result. -/
theorem report_eq (s : Session) (outcome : Outcome) :
  report s outcome = writeLines (variableLines s.values ++ [resultLine outcome.result])
  := by
  rw [report, showVariables_eq, showResult_eq, writeLines, writeLines, List.flatMap_append,
    List.flatMap_singleton]

variable {arguments : List Text} {o : Options} {slider : Slider}

/-- Without a formula among the arguments a run is a dialogue. -/
theorem run_eq_dialogue (ha : readArguments arguments = .ok o) (hf : o.formula = none)
    (hs : Slider.make o.minimum o.maximum o.step = .ok slider) (input : List UInt8) :
  run arguments input
    = (dialogue (.withVariables slider (.ofList o.entries)) input).ending o.level
  := by
  simp only [run, start, ha, hs, hf]

/-- The dialogue over an input whose lines are known. -/
theorem Hears.dialogue_eq (h : Hears ls ts unreadable) {input : List UInt8}
    (hi : IsDividedInto input ls) (s : Session) :
  dialogue s input
    = { output := prompt
          ++ (s.run (ts.map Step.ofLine)).flatMap fun p => report p.1 p.2 ++ prompt
        events := (s.moments (ts.map Step.ofLine)).flatMap fun m => m.1.events m.2
        unreadable }
  := by
  rw [dialogue, hi.lines_eq, h.converse_eq]

/-- A dialogue fails exactly when it meets a line that is not text. -/
theorem Transcript.ending_eq (level : LogLevel) (t : Transcript) :
  t.ending level
    = { exitCode := if t.unreadable then 1 else 0
        output := t.output
        diagnostics := Event.log level t.events ++ if t.unreadable then badInputText else [] }
  := by
  rw [ending]
  cases t.unreadable with
  | true => rfl
  | false =>
    rw [if_neg Bool.false_ne_true, if_neg Bool.false_ne_true, if_neg Bool.false_ne_true,
      List.append_nil]

/-- Without a formula among the arguments the program writes a prompt, and for each line up to a
blank one, one that is not text, or the end of the input, it writes what the session shows after the
step that the line stands for, and a prompt again. It fails exactly when a line is not text. What
follows a blank line makes no difference. -/
theorem run_dialogue (ha : readArguments arguments = .ok o) (hf : o.formula = none)
    (hs : Slider.make o.minimum o.maximum o.step = .ok slider) :
  (∀ input, ∃ ls ts unreadable, IsDividedInto input ls ∧ Hears ls ts unreadable)
    ∧ (∀ input ls ts unreadable, IsDividedInto input ls → Hears ls ts unreadable →
      let s := Session.withVariables slider (.ofList o.entries)
      let steps := ts.map fun t => if '=' ∈ t then Step.assign t else Step.formula t
      (run arguments input).output
          = "> ".toList ++ ((s.run steps).flatMap fun p =>
            writeLines (variableLines p.1.values ++ [resultLine p.2.result]) ++ "> ".toList)
        ∧ (run arguments input).exitCode = if unreadable then 1 else 0)
    ∧ ∀ before ls t rest rest', IsDividedInto before ls → before.getLast? = some lineFeed →
      encode t ∈ ls → (∀ c ∈ t, Text.isBlank c = true) →
      run arguments (before ++ rest) = run arguments (before ++ rest')
  := by
  refine ⟨?_, ?_, ?_⟩
  · intro input
    obtain ⟨ts, unreadable, h⟩ := exists_hears (lines input)
    exact ⟨_, ts, unreadable, isDividedInto_iff.mpr rfl, h⟩
  · intro input ls ts unreadable hi h s steps
    rw [run_eq_dialogue ha hf hs, h.dialogue_eq hi, Transcript.ending_eq]
    constructor
    · simp only [report_eq]
      rfl
    · rfl
  · intro before ls t rest rest' hi hl ht hb
    obtain ⟨ts, unreadable, h⟩ := exists_hears ls
    have divided (rest : List UInt8) : IsDividedInto (before ++ rest) (ls ++ lines rest) := by
      rw [isDividedInto_iff, lines_append hl, hi.lines_eq]
    rw [run_eq_dialogue ha hf hs, run_eq_dialogue ha hf hs,
      (h.append ht hb _).dialogue_eq (divided rest), (h.append ht hb _).dialogue_eq (divided rest')]

/-- A preset value, two lines with different ends, and a line that is not text. -/
theorem run_dialogue_unreadable :
  let arguments := ["--set".toList, "a=5".toList]
  let o : Options := ⟨none, [⟨'a', 5⟩], 0, 100, 1, false⟩
  let input := encode "2a + b\r\nb = 3\n".toList ++ 0xFF :: lineFeed :: encode "1".toList
  readArguments arguments = .ok o
    ∧ Slider.make o.minimum o.maximum o.step = .ok .percent
    ∧ (run arguments input).output = "> a = 5, b = 0\n10\n> a = 5, b = 3\n13\n> ".toList
    ∧ (run arguments input).exitCode = 1
  := by
  intro arguments o input
  have ha : readArguments arguments = .ok o := by decide +kernel
  have hs : Slider.make o.minimum o.maximum o.step = .ok .percent := Slider.make_numbers .percent
  let ls := [encode "2a + b".toList, encode "b = 3".toList, [0xFF], encode "1".toList]
  have hi : IsDividedInto input ls := isDividedInto_iff.mpr (by decide +kernel)
  have hn : decode? [0xFF] = none := by decide +kernel
  have hh : Hears ls ["2a + b".toList, "b = 3".toList] true := by
    apply Hears.answered ⟨'a', by decide +kernel, rfl⟩
    apply Hears.answered ⟨'b', by decide +kernel, rfl⟩
    apply Hears.unreadable (decode?_eq_none_iff.mp hn)
  obtain ⟨ho, hc⟩ := (run_dialogue ha rfl hs).2.1 _ _ _ _ hi hh
  refine ⟨ha, hs, ho.trans ?_, hc⟩
  decide +kernel

end SliderCalculator.CommandLine
