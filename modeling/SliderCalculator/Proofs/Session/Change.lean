import SliderCalculator.Proofs.Variables.Lookup
import SliderCalculator.Session

/-!
# What steps change

A step is read before it is done, and one that cannot be read is refused. Any other asks for a
formula or for the value of a name: the session takes the change and calculates anew. This is
all that a step does: `step_eq`.
-/

namespace SliderCalculator

/-- What a step asks for. -/
inductive Change where
  /-- Another formula. -/
  | formula (text : Text)
  /-- Another value of a name. -/
  | value (name : Char) (value : Float)

namespace Step

/-- What a step asks for, unless it is refused. -/
def change : Step → Except Error Change
  | formula t => (Formula.check t).map fun _ => .formula t
  | set name x => .ok (.value name x)
  | assign t => (Assignment.read t).map fun a => .value a.name a.value

/-- The formula that a step types, unless it is refused. -/
def typed? (t : Step) : Option Text :=
  match t.change with
  | .ok (.formula f) => some f
  | _ => none

/-- The value that a step gives to a name, whether or not the name is a variable. -/
def given? (name : Char) (t : Step) : Option Float :=
  match t.change with
  | .ok (.value n x) => if n = name then some x else none
  | _ => none

variable {t : Step} {f : Text}

theorem change_of_typed? (h : t.typed? = some f) :
  t.change = .ok (.formula f)
  := by
  rw [typed?] at h
  split at h
  case h_1 g hg =>
    cases h
    apply hg
  case h_2 => contradiction

/-- A step that types no formula is refused or gives a value. -/
theorem change_of_not_typed (h : t.typed? = none) :
  (∃ e, t.change = .error e) ∨ ∃ name x, t.change = .ok (.value name x)
  := by
  rw [typed?] at h
  match hc : t.change with
  | .error e => exact .inl ⟨e, rfl⟩
  | .ok (.value name x) => exact .inr ⟨name, x, rfl⟩
  | .ok (.formula f) =>
    rw [hc] at h
    contradiction

/-- A step that types a formula gives no value. -/
theorem given?_of_typed? (h : t.typed? = some f) (name : Char) :
  t.given? name = none
  := by
  rw [given?, change_of_typed? h]

end Step

/-- Whether a session has just begun. -/
inductive Session.IsInitial : Session → Prop where
  | new (slider : Slider) : IsInitial (Session.new slider)
  | withVariables (slider : Slider) (presets : Variables) :
      IsInitial (Session.withVariables slider presets)

namespace Session

/-- The session with a change, not calculated yet. Only variables take a value. -/
def alter (s : Session) : Change → Session
  | .formula f => { s with formula := f, values := Variables.detect f s.values }
  | .value name x =>
    if name ∈ s.values.names then
      { s with values := s.values.set name (s.slider.snap x) }
    else
      s

/-- A step is refused, or it makes the change that it asks for and calculates anew. -/
theorem step_eq (s : Session) (t : Step) :
  s.step t = match t.change with
    | .error e => (s, .refused e)
    | .ok c => (s.alter c).recalculate
  := by
  have hset : ∀ name x, s.setVariable name x = (s.alter (.value name x)).recalculate := by
    intro name x
    simp only [setVariable, alter]
    split <;> rfl
  cases t with
  | formula f =>
    simp only [step, setFormula, Step.change]
    cases Formula.check f <;> rfl
  | set name x => apply hset
  | assign f =>
    simp only [step, assign, Step.change]
    cases Assignment.read f with
    | error e => rfl
    | ok a => apply hset

/-- A refused step leaves the session as it was. -/
theorem step_of_error {s : Session} {t : Step} {e : Error} (h : t.change = .error e) :
  s.step t = (s, .refused e)
  := by
  rw [step_eq, h]

theorem step_of_ok {s : Session} {t : Step} {c : Change} (h : t.change = .ok c) :
  s.step t = (s.alter c).recalculate
  := by
  rw [step_eq, h]

/-! ### Runs -/

theorem after_append (s : Session) (ts us : List Step) :
  s.after (ts ++ us) = (s.after ts).after us
  := List.foldl_append

/-- What one more step leads to. -/
theorem after_concat (s : Session) (ts : List Step) (t : Step) :
  s.after (ts ++ [t]) = ((s.after ts).step t).1
  := s.after_append ts [t]

theorem run_concat (s : Session) (ts : List Step) (t : Step) :
  s.run (ts ++ [t]) = s.run ts ++ [(s.after ts).step t]
  := by
  induction ts generalizing s with
  | nil => rfl
  | cons u us ih => exact congrArg _ (ih _)

/-! ### Results -/

/-- Whether the result of a session is that of its formula. -/
def ShowsResult (s : Session) : Prop :=
  s.result = (calculate s.formula s.values).toOption

variable {s : Session} {t : Step} {f : Text} {name : Char}

/-- A session that has just begun has an empty formula and no result. -/
theorem IsInitial.showsResult (h : s.IsInitial) :
  s.ShowsResult
  := by
  cases h <;> rfl

/-- The result is calculated anew by a step that is not refused, and belongs to the same formula
and values as before otherwise. -/
theorem ShowsResult.step (h : s.ShowsResult) (t : Step) :
  (s.step t).1.ShowsResult
  := by
  cases hc : t.change with
  | error e =>
    rw [step_of_error hc]
    apply h
  | ok c =>
    rw [step_of_ok hc]
    rfl

/-- A session shows the result of its formula after any steps. -/
theorem ShowsResult.after (h : s.ShowsResult) (ts : List Step) :
  (s.after ts).ShowsResult
  := by
  induction ts generalizing s with
  | nil => apply h
  | cons t ts ih => apply ih (h.step t)

/-! ### Values -/

/-- A variable that is given a value takes the snapped value, and the others keep theirs. -/
theorem get?_alter_value (s : Session) (n : Char) (x : Float) (name : Char) :
  (s.alter (.value n x)).values.get? name
    = (s.values.get? name).map fun y => if n = name then s.slider.snap x else y
  := by
  rw [alter]
  split
  case isTrue hn =>
    rw [Variables.get?_set]
    by_cases h : name = n
    · subst h
      obtain ⟨y, hy⟩ := Variables.exists_get?_of_mem hn
      simp [hy]
    · simp [h, Ne.symm h]
  case isFalse hn =>
    by_cases h : name = n
    · subst h
      rw [Variables.get?_eq_none_iff.mpr hn]
      rfl
    · simp [Ne.symm h]

theorem names_alter_value (s : Session) (n : Char) (x : Float) :
  (s.alter (.value n x)).values.names = s.values.names
  := by
  rw [alter]
  split
  case isTrue hn => rw [Variables.names_set, if_pos hn]
  case isFalse => rfl

/-- A formula makes its letters the variables. -/
theorem values_step_of_typed? (h : t.typed? = some f) :
  (s.step t).1.values = Variables.detect f s.values
  := by
  rw [step_of_ok (Step.change_of_typed? h)]
  rfl

theorem formula_step_of_typed? (h : t.typed? = some f) :
  (s.step t).1.formula = f
  := by
  rw [step_of_ok (Step.change_of_typed? h)]
  rfl

/-- A step that types no formula keeps the formula. -/
theorem formula_step (h : t.typed? = none) :
  (s.step t).1.formula = s.formula
  := by
  obtain ⟨e, hc⟩ | ⟨n, x, hc⟩ := Step.change_of_not_typed h
  · rw [step_of_error hc]
  · rw [step_of_ok hc, recalculate, alter]
    split <;> rfl

/-- It keeps the variables. -/
theorem names_step (h : t.typed? = none) :
  (s.step t).1.values.names = s.values.names
  := by
  obtain ⟨e, hc⟩ | ⟨n, x, hc⟩ := Step.change_of_not_typed h
  · rw [step_of_error hc]
  · rw [step_of_ok hc]
    apply names_alter_value

/-- Each variable takes the value that it is given, and keeps its own otherwise. -/
theorem get?_step (h : t.typed? = none) :
  (s.step t).1.values.get? name
    = (s.values.get? name).map fun y => ((t.given? name).map s.slider.snap).getD y
  := by
  obtain ⟨e, hc⟩ | ⟨n, x, hc⟩ := Step.change_of_not_typed h
  · rw [step_of_error hc, Step.given?, hc]
    simp
  · rw [step_of_ok hc, Step.given?, hc]
    apply (get?_alter_value s n x name).trans
    by_cases hn : n = name <;> simp [hn]

end Session

end SliderCalculator
