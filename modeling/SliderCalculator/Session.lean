import SliderCalculator.Assignment
import SliderCalculator.Calculation
import SliderCalculator.Slider

/-!
# Sessions

A session is a calculator in use: a formula, the values of its variables, which a slider
keeps in its range, and the number of the formula as long as it has one. Every step that
is not refused calculates anew.
-/

namespace SliderCalculator

/-- A calculator in use. -/
structure Session where
  slider : Slider
  formula : Text
  values : Variables
  result : Option Float

/-- What is done with a session. -/
inductive Step where
  /-- Types a formula. -/
  | formula (text : Text)
  /-- Moves the slider of a variable. -/
  | set (name : Char) (value : Float)
  /-- Types an assignment, which moves the slider of a variable. -/
  | assign (text : Text)
deriving DecidableEq

/-- What a step leads to. -/
inductive Outcome where
  /-- The step is refused, and the session is as before. -/
  | refused (error : Error)
  /-- The step is done, and the formula has been calculated. -/
  | answered (result : Except Error Float)

/-- The number that a step leads to, or the error. -/
def Outcome.result : Outcome → Except Error Float
  | refused e => .error e
  | answered r => r

namespace Session

/-- The session with a slider that nothing has been typed in. -/
def new (slider : Slider) : Session where
  slider
  formula := []
  values := Variables.empty
  result := none

/-- The session with values for the names that the first formula uses. -/
def withVariables (slider : Slider) (presets : Variables) : Session :=
  { new slider with values := slider.snapAll presets.entries }

/-- Calculates the formula. -/
def recalculate (s : Session) : Session × Outcome :=
  let result := calculate s.formula s.values
  ({ s with result := result.toOption }, .answered result)

/-- Replaces the formula. Its letters are the variables from then on, and those that were
variables before keep their values. -/
def setFormula (s : Session) (formula : Text) : Session × Outcome :=
  match Formula.check formula with
  | .error e => (s, .refused e)
  | .ok () =>
    recalculate { s with formula, values := Variables.detect formula s.values }

/-- Moves the slider of a variable. A name that is not a variable is ignored. -/
def setVariable (s : Session) (name : Char) (value : Float) : Session × Outcome :=
  if name ∈ s.values.names then
    recalculate { s with values := s.values.set name (s.slider.snap value) }
  else
    recalculate s

/-- Moves the slider of a variable as an assignment says. -/
def assign (s : Session) (t : Text) : Session × Outcome :=
  match Assignment.read t with
  | .error e => (s, .refused e)
  | .ok a => s.setVariable a.name a.value

/-- Does a step. -/
def step (s : Session) : Step → Session × Outcome
  | .formula t => s.setFormula t
  | .set name value => s.setVariable name value
  | .assign t => s.assign t

/-- A step keeps the slider. -/
@[simp]
theorem slider_step (s : Session) (t : Step) :
  (s.step t).1.slider = s.slider
  := by
  cases t with
  | formula t =>
    simp only [step, setFormula]
    split <;> rfl
  | set name value =>
    simp only [step, setVariable]
    split <;> rfl
  | assign t =>
    simp only [step, assign, setVariable]
    split
    · rfl
    · split <;> rfl

/-- The sessions after each of the steps, with what the step led to. -/
def run (s : Session) : List Step → List (Session × Outcome)
  | [] => []
  | t :: ts => s.step t :: (s.step t).1.run ts

/-- The session after all of the steps. -/
def after (s : Session) (ts : List Step) : Session :=
  ts.foldl (fun s t => (s.step t).1) s

/-- Any number of steps keeps the slider. -/
@[simp]
theorem slider_after (s : Session) (ts : List Step) :
  (s.after ts).slider = s.slider
  := by
  induction ts generalizing s with
  | nil => rfl
  | cons t ts ih =>
    apply Eq.trans (ih (s.step t).1)
    apply slider_step

end Session

end SliderCalculator
