import SliderCalculator.Proofs.CommandLine.Arguments
import SliderCalculator.Proofs.CommandLine.Dialogue

/-!
# Quiet and verbose runs

A run is told in events and ends with a report of a failure, if there is one. A verbose run differs
from a quiet one in the events that its log shows, and in nothing else: `run_verbose`.
-/

namespace SliderCalculator

namespace Event

/-- A verbose log shows every event. -/
theorem log_ofVerbose_true (es : List Event) :
  log (.ofVerbose true) es = es.flatMap line
  := by
  have h : (es.filter fun e => (LogLevel.ofVerbose true).shows e.level) = es :=
    List.filter_eq_self.mpr fun e _ => by cases e <;> rfl
  rw [log, h]

/-- A quiet log shows the events that are not for debugging. -/
theorem log_ofVerbose_false (es : List Event) :
  log (.ofVerbose false) es = (es.filter fun e => e.level ≠ .debug).flatMap line
  := by
  have h (e : Event) : (LogLevel.ofVerbose false).shows e.level = decide (e.level ≠ .debug) := by
    cases e <;> rfl
  simp only [log, h]

end Event

namespace CommandLine

/-- The events that a run is told in, and the report that it ends with. -/
inductive Tells (input : List UInt8) : Except Halt Options → List Event → Text → Prop where
  | help : Tells input (.error .help) [] []
  | version : Tells input (.error .version) [] []
  /-- No slider can be made. -/
  | badSlider {o : Options} {e : Error} (hs : Slider.make o.minimum o.maximum o.step = .error e) :
      Tells input (.ok o) [] (badSliderText e)
  /-- A formula among the arguments has a number. -/
  | number {o : Options} {slider : Slider} {f : Text} {x : Float}
      (hs : Slider.make o.minimum o.maximum o.step = .ok slider) (hf : o.formula = some f)
      (hc : calculate f (slider.snapAll o.entries) = .ok x) :
      Tells input (.ok o) (Event.ofCalculation f (slider.snapAll o.entries)) []
  /-- A formula among the arguments has no number. -/
  | badFormula {o : Options} {slider : Slider} {f : Text} {e : Error}
      (hs : Slider.make o.minimum o.maximum o.step = .ok slider) (hf : o.formula = some f)
      (hc : calculate f (slider.snapAll o.entries) = .error e) :
      Tells input (.ok o) (Event.ofCalculation f (slider.snapAll o.entries)) (badFormulaText f e)
  /-- A dialogue is told in the events of its steps. -/
  | dialogue {o : Options} {slider : Slider} {ls : List (List UInt8)} {ts : List Text}
      {unreadable : Bool} (hs : Slider.make o.minimum o.maximum o.step = .ok slider)
      (hf : o.formula = none) (hi : IsDividedInto input ls) (hh : Hears ls ts unreadable) :
      Tells input (.ok o)
        (((Session.withVariables slider (.ofList o.entries)).moments
          (ts.map Step.ofLine)).flatMap fun m => m.1.events m.2)
        (if unreadable then badInputText else [])

@[simp] theorem Options.entries_withVerbose (o : Options) (verbose : Bool) :
  (o.withVerbose verbose).entries = o.entries
  := rfl

variable {arguments : List Text}

/-- Arguments that are not read to their end end the run. -/
theorem run_of_error {halt : Halt} (ha : readArguments arguments = .error halt)
    (input : List UInt8) :
  run arguments input = halt.ending
  := by
  simp only [run, start, ha]

/-- With a formula among the arguments a run is a calculation. -/
theorem run_eq_calculateOnce {o : Options} {slider : Slider} {f : Text}
    (ha : readArguments arguments = .ok o) (hf : o.formula = some f)
    (hs : Slider.make o.minimum o.maximum o.step = .ok slider) (input : List UInt8) :
  run arguments input = calculateOnce o.level f (slider.snapAll o.entries)
  := by
  simp only [run, start, ha, hs, hf]

/-- Runs with the same options, up to how verbose the log is, are told in the same events and end
alike. -/
theorem exists_tells (o : Options) (input : List UInt8) :
  ∃ es report exitCode output, Tells input (.ok o) es report
    ∧ ∀ {arguments verbose}, readArguments arguments = .ok (o.withVerbose verbose) →
      run arguments input = ⟨exitCode, output, Event.log (.ofVerbose verbose) es ++ report⟩
  := by
  cases hs : Slider.make o.minimum o.maximum o.step with
  | error e =>
    refine ⟨_, _, 1, [], .badSlider hs, fun ha => ?_⟩
    simp only [run, start, ha, Options.withVerbose, hs]
    rfl
  | ok slider =>
    cases hf : o.formula with
    | some f =>
      cases hc : calculate f (slider.snapAll o.entries) with
      | ok x =>
        refine ⟨_, _, 0, Number.text x ++ ['\n'], .number hs hf hc, fun ha => ?_⟩
        rw [run_eq_calculateOnce ha hf hs, calculateOnce, Options.entries_withVerbose, hc,
          List.append_nil]
        rfl
      | error e =>
        refine ⟨_, _, 1, [], .badFormula hs hf hc, fun ha => ?_⟩
        rw [run_eq_calculateOnce ha hf hs, calculateOnce, Options.entries_withVerbose, hc]
        rfl
    | none =>
      obtain ⟨ts, unreadable, hh⟩ := exists_hears (lines input)
      have hi : IsDividedInto input (lines input) := isDividedInto_iff.mpr rfl
      let t := dialogue (.withVariables slider (.ofList o.entries)) input
      refine ⟨_, _, if t.unreadable then 1 else 0, t.output, .dialogue hs hf hi hh, fun ha => ?_⟩
      rw [run_eq_dialogue ha hf hs, Options.entries_withVerbose, Transcript.ending_eq]
      simp only [t, hh.dialogue_eq hi]
      rfl

/-- A letter before the arguments that asks for a verbose log changes neither the exit code nor the
output. Both logs show the same events, the quiet one without those for debugging, and the same
report follows. -/
theorem run_verbose (h : ¬ AsksForVerbosity arguments) (input : List UInt8) :
  let quiet := run arguments input
  let verbose := run ("-v".toList :: arguments) input
  verbose.exitCode = quiet.exitCode
    ∧ verbose.output = quiet.output
    ∧ (quiet.exitCode ≠ 2 → ∃ es report, Tells input (readArguments arguments) es report
      ∧ verbose.diagnostics = es.flatMap Event.line ++ report
      ∧ quiet.diagnostics
        = (es.filter fun e => e.level ≠ .debug).flatMap Event.line ++ report)
  := by
  obtain ⟨hq, hv⟩ := readArguments_verbose h
  cases ha : readArguments arguments with
  | error halt =>
    rw [ha] at hv
    rw [run_of_error ha, run_of_error hv]
    refine ⟨rfl, rfl, fun hc => ?_⟩
    cases halt with
    | fault => exact absurd rfl hc
    | help => exact ⟨[], [], .help, rfl, rfl⟩
    | version => exact ⟨[], [], .version, rfl, rfl⟩
  | ok o =>
    obtain ⟨es, report, exitCode, output, ht, hr⟩ := exists_tells o input
    rw [ha] at hq hv
    rw [hr (ha.trans hq), hr hv]
    refine ⟨rfl, rfl, fun _ => ⟨es, report, ht, ?_, ?_⟩⟩
    · rw [Event.log_ofVerbose_true]
    · rw [Event.log_ofVerbose_false]

/-- A formula that is refused, one that is calculated, a name that is no variable, and a line that
is not text. -/
theorem run_verbose_refused :
  let arguments := ["--set".toList, "a=2".toList]
  let input := encode "1$\n1/a\nq=1\n".toList ++ [0xFF]
  let quiet := run arguments input
  let verbose := run ("-v".toList :: arguments) input
  ¬ AsksForVerbosity arguments
    ∧ quiet.exitCode = 1
    ∧ quiet.diagnostics
      = " WARN rejected formula formula=1$ error=invalid character, '$', encountered\n".toList
        ++ badInputText
    ∧ ∃ es report, Tells input (readArguments arguments) es report
      ∧ verbose.diagnostics = es.flatMap Event.line ++ report
      ∧ quiet.diagnostics = (es.filter fun e => e.level ≠ .debug).flatMap Event.line ++ report
  := by
  intro arguments input quiet verbose
  have h : ¬ AsksForVerbosity arguments := by decide +kernel
  have ha : readArguments arguments = .ok ⟨none, [⟨'a', 2⟩], 0, 100, 1, false⟩ := by decide +kernel
  have hq : quiet = ⟨1,
      "> a = 2\nError, invalid character, '$', encountered\n> a = 2\n0.5\n> a = 2\n0.5\n> ".toList,
      " WARN rejected formula formula=1$ error=invalid character, '$', encountered\n".toList
        ++ badInputText⟩ := by
    refine (run_eq_dialogue ha rfl (Slider.make_numbers .percent) input).trans ?_
    decide +kernel
  refine ⟨h, congrArg _ hq, congrArg _ hq, (run_verbose h input).2.2 ?_⟩
  rw [congrArg Ending.exitCode hq]
  decide

end CommandLine

end SliderCalculator
