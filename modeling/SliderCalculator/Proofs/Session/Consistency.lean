import Mathlib.Data.List.Induction
import SliderCalculator.Proofs.Formula.Letters
import SliderCalculator.Proofs.Session.Change

/-!
# Consistent sessions

What a session shows fits together after any steps: the result is that of the formula under the
values, also when a step has been refused or the formula has no value, and the variables are the
letters of the formula as soon as one has been typed: `isConsistent_after`.
-/

namespace SliderCalculator

/-- The result of a step, unless it was refused. -/
def Outcome.answer? : Outcome → Option (Except Error Float)
  | refused _ => none
  | answered r => some r

namespace Session

/-- The results of the steps of a run that are not refused. -/
def answers (s : Session) (ts : List Step) : List (Except Error Float) :=
  (s.run ts).filterMap fun p => p.2.answer?

theorem answers_concat (s : Session) (ts : List Step) (t : Step) :
  s.answers (ts ++ [t]) = s.answers ts ++ ((s.after ts).step t).2.answer?.toList
  := by
  rw [answers, answers, run_concat, List.filterMap_append]
  cases h : ((s.after ts).step t).2.answer? <;> simp [h]

/-- Whether a session is as it must be after some formulas have been typed and some steps have
been answered. -/
structure IsConsistent (s : Session) (typed : List Text) (answered : List (Except Error Float)) :
    Prop where
  result : s.result = (calculate s.formula s.values).toOption
  answer : ∀ r ∈ answered.getLast?, r = calculate s.formula s.values
  formula : ∀ f ∈ typed.getLast?, s.formula = f
  names : typed ≠ [] → Formula.ListsLetters s.values.names s.formula

variable {s : Session} {typed : List Text} {answered : List (Except Error Float)}

/-- A session that has just begun is consistent. -/
theorem IsInitial.isConsistent (h : s.IsInitial) :
  s.IsConsistent [] []
  := by
  constructor
  case result => apply h.showsResult
  case answer => simp
  case formula => simp
  case names => simp

/-- The last answer is the result of the formula after a step, too. -/
theorem IsConsistent.answer_step (h : s.IsConsistent typed answered) (t : Step) :
  ∀ r ∈ (answered ++ (s.step t).2.answer?.toList).getLast?,
    r = calculate (s.step t).1.formula (s.step t).1.values
  := by
  cases hc : t.change with
  | error e =>
    rw [step_of_error hc]
    simpa [Outcome.answer?] using h.answer
  | ok c =>
    rw [step_of_ok hc]
    simp [Outcome.answer?, recalculate]

/-- A step keeps a session consistent. -/
theorem IsConsistent.step (h : s.IsConsistent typed answered) (t : Step) :
  (s.step t).1.IsConsistent (typed ++ t.typed?.toList) (answered ++ (s.step t).2.answer?.toList)
  := by
  constructor
  case result => apply ShowsResult.step h.result
  case answer => apply h.answer_step
  case formula =>
    cases ht : t.typed? with
    | none =>
      rw [formula_step ht]
      simpa using h.formula
    | some f =>
      rw [formula_step_of_typed? ht]
      simp
  case names =>
    cases ht : t.typed? with
    | none =>
      rw [formula_step ht, names_step ht]
      simpa using h.names
    | some f =>
      rw [formula_step_of_typed? ht, values_step_of_typed? ht, Variables.names_detect]
      intro _
      apply Formula.listsLetters_letters

/-- A session is consistent after any steps. -/
theorem isConsistent_after (h : s.IsInitial) (ts : List Step) :
  (s.after ts).IsConsistent (ts.filterMap Step.typed?) (s.answers ts)
  := by
  induction ts using List.reverseRecOn with
  | nil => apply h.isConsistent
  | append_singleton ts t ih =>
    rw [after_concat, answers_concat, List.filterMap_append]
    apply ih.step

/-- A formula without a value, a refused formula and a name that is no variable. -/
theorem isConsistent_after_division :
  let s := withVariables .percent (.ofList [('a', 2), ('q', 1)])
  let ts : List Step := [.formula "8/a".toList, .set 'a' 0, .formula "8=a".toList, .set 'q' 3]
  s.IsInitial
    ∧ (s.after ts).IsConsistent ["8/a".toList] (s.answers ts)
    ∧ (s.after ts).values.names = ['a'] ∧ (s.after ts).result = none
  := by
  intro s ts
  have h : s.IsInitial := .withVariables _ _
  have ht : ts.filterMap Step.typed? = ["8/a".toList] := by decide +kernel
  refine ⟨h, ?_, ?_, ?_⟩
  · rw [← ht]
    apply isConsistent_after h
  · decide +kernel
  · decide +kernel

end Session

end SliderCalculator
