import SliderCalculator.Proofs.Session.Change
import SliderCalculator.Proofs.Token.Scan

/-!
# Steps without effect

A step that is refused leaves a session as it was. So does a step that gives a value to a name which
is no variable: it calculates anew, but a session always shows the result of its formula. Steps of
both kinds can be taken out of a run, and the other steps lead to what they led to before:
`run_without_isIdle`.
-/

namespace SliderCalculator

open Formula

namespace Formula

/-! ### Refused formulas -/

/-- Whether a character is a letter or digit of ASCII, the sign of an operator, a parenthesis or a
blank. -/
def IsTypable (c : Char) : Prop :=
  c.isAlphanum = true ∨ c ∈ ['+', '-', '*', '/', '^', '(', ')'] ∨ Text.isBlank c = true

theorem isAllowed_iff {c : Char} :
  isAllowed c = true ↔ IsTypable c
  := by
  have hs : Token.isOperatorChar c = true ↔ c ∈ ['+', '-', '*', '/', '^'] := by
    rw [Token.isOperatorChar_iff]
    constructor
    · rintro ⟨o, rfl⟩
      cases o <;> simp [Operator.sign]
    · simp only [List.mem_cons, List.not_mem_nil, or_false]
      rintro (rfl | rfl | rfl | rfl | rfl)
      exacts [⟨.addition, rfl⟩, ⟨.subtraction, rfl⟩, ⟨.multiplication, rfl⟩, ⟨.division, rfl⟩,
        ⟨.exponentiation, rfl⟩]
  simp only [isAllowed, IsTypable, Bool.or_eq_true, hs, Token.isPunctuationChar_iff, List.mem_cons,
    List.not_mem_nil, or_false]
  tauto

/-- A formula is refused when it holds a character that is not allowed, and the first such character
is named. -/
theorem check_eq_error_iff {f : Text} {e : Error} :
  check f = .error e
    ↔ ∃ before c after, f = before ++ c :: after ∧ (∀ d ∈ before, IsTypable d) ∧ ¬ IsTypable c
      ∧ e = .foreignCharacter c
  := by
  simp only [← isAllowed_iff, Bool.not_eq_true]
  rw [check]
  split
  case h_1 c hc =>
    obtain ⟨hf, before, after, rfl, hb⟩ := List.find?_eq_some_iff_append.mp hc
    simp only [Bool.not_eq_true', Bool.not_not] at hf hb
    constructor
    · rintro ⟨⟩
      exact ⟨before, c, after, rfl, hb, hf, rfl⟩
    · rintro ⟨before', c', after', h, hb', hf', rfl⟩
      have hc' : (before' ++ c' :: after').find? (!isAllowed ·) = some c' := by
        rw [List.find?_eq_some_iff_append]
        refine ⟨by simp [hf'], before', after', rfl, ?_⟩
        simpa using hb'
      rw [← h, hc] at hc'
      cases hc'
      rfl
  case h_2 hn =>
    constructor
    · rintro ⟨⟩
    · rintro ⟨before, c, after, rfl, -, hc, -⟩
      have ha := List.find?_eq_none.mp hn c (by simp)
      rw [hc] at ha
      contradiction

end Formula

namespace Session

variable {s : Session} {t : Step}

/-- The error that a typed formula is refused with. -/
theorem step_formula_eq_refused_iff {f : Text} {e : Error} :
  (s.step (.formula f)).2 = .refused e ↔ check f = .error e
  := by
  rw [step_eq, Step.change]
  cases check f with
  | error e' => simp [Except.map]
  | ok => simp [Except.map, recalculate]

/-! ### Single steps -/

/-- Whether a step has no effect on a session: it types a formula or an assignment that is refused,
or it gives a value to a name that is no variable. -/
def isIdle (s : Session) : Step → Bool
  | .formula f => !(check f).isOk
  | .set name _ => decide (name ∉ s.values.names)
  | .assign t =>
    match Assignment.read t with
    | .error _ => true
    | .ok a => decide (a.name ∉ s.values.names)

theorem isIdle_iff :
  s.isIdle t = true
    ↔ (∃ e, t.change = .error e) ∨ ∃ name x, t.change = .ok (.value name x) ∧ name ∉ s.values.names
  := by
  cases t with
  | formula f =>
    rw [isIdle, Step.change]
    cases check f <;> simp [Except.isOk, Except.toBool, Except.map]
  | set name x => simp [isIdle, Step.change]
  | assign t =>
    rw [isIdle, Step.change]
    cases Assignment.read t <;> simp [Except.map]

/-- A step without effect leaves a session as it was. -/
theorem step_of_isIdle (hs : s.ShowsResult) (h : s.isIdle t = true) :
  (s.step t).1 = s
  := by
  obtain ⟨e, hc⟩ | ⟨name, x, hc, hn⟩ := isIdle_iff.mp h
  · rw [step_of_error hc]
  · -- the session is calculated anew, to the result that it shows already
    rw [step_of_ok hc, alter, if_neg hn, recalculate, ← hs]

/-! ### Runs -/

/-- The steps of a run, each of them with the session that it is done in. -/
def moments (s : Session) : List Step → List (Session × Step)
  | [] => []
  | t :: ts => (s, t) :: (s.step t).1.moments ts

/-- The steps of a run that have an effect, each of them with the session that it is done in. -/
def effective (s : Session) (ts : List Step) : List (Session × Step) :=
  (s.moments ts).filter fun m => !m.1.isIdle m.2

theorem run_eq_map_moments (s : Session) (ts : List Step) :
  s.run ts = (s.moments ts).map fun m => m.1.step m.2
  := by
  induction ts generalizing s with
  | nil => rfl
  | cons t ts ih => exact congrArg _ (ih _)

theorem ShowsResult.of_mem_moments {ts : List Step} {m : Session × Step} (hs : s.ShowsResult)
    (hm : m ∈ s.moments ts) :
  m.1.ShowsResult
  := by
  induction ts generalizing s with
  | nil => contradiction
  | cons t ts ih =>
    obtain rfl | hm := List.mem_cons.mp hm
    · apply hs
    · apply ih (hs.step t) hm

/-- The first step of a run is left out if it has no effect. -/
theorem effective_cons_of_isIdle (hs : s.ShowsResult) (h : s.isIdle t = true) (ts : List Step) :
  s.effective (t :: ts) = s.effective ts
  := by
  rw [effective, moments, List.filter_cons_of_neg (by simp [h]), step_of_isIdle hs h, effective]

theorem effective_cons_of_not_isIdle (h : s.isIdle t = false) (ts : List Step) :
  s.effective (t :: ts) = (s, t) :: (s.step t).1.effective ts
  := by
  rw [effective, moments, List.filter_cons_of_pos (by simp [h]), effective]

/-- The steps that have an effect lead to the same when they are done alone. -/
theorem ShowsResult.run_effective (hs : s.ShowsResult) (ts : List Step) :
  s.run ((s.effective ts).map Prod.snd) = (s.effective ts).map fun m => m.1.step m.2
  := by
  induction ts generalizing s with
  | nil => rfl
  | cons t ts ih =>
    cases h : s.isIdle t with
    | true =>
      rw [effective_cons_of_isIdle hs h]
      apply ih hs
    | false =>
      rw [effective_cons_of_not_isIdle h, List.map_cons, List.map_cons, run, ih (hs.step t)]

/-- Without the steps that have no effect a run leads to the same sessions and outcomes at all other
steps, and each step that is left out leaves the session as it was. A formula is refused exactly
when it holds a character that may not stand in one, and the first such character is named. -/
theorem run_without_isIdle (h : s.IsInitial) (ts : List Step) :
  s.run ts = (s.moments ts).map (fun m => m.1.step m.2)
    ∧ s.run ((s.effective ts).map Prod.snd) = (s.effective ts).map (fun m => m.1.step m.2)
    ∧ (∀ m ∈ s.moments ts, m.1.isIdle m.2 = true → (m.1.step m.2).1 = m.1)
    ∧ ∀ (s : Session) (f : Text) (e : Error),
      (s.step (.formula f)).2 = .refused e
        ↔ ∃ before c after, f = before ++ c :: after ∧ (∀ d ∈ before, IsTypable d)
          ∧ ¬ IsTypable c ∧ e = .foreignCharacter c
  := by
  refine ⟨run_eq_map_moments s ts, h.showsResult.run_effective ts, ?_, ?_⟩
  · intro m hm hi
    apply step_of_isIdle (h.showsResult.of_mem_moments hm) hi
  · intro s f e
    rw [step_formula_eq_refused_iff, check_eq_error_iff]

/-- Refused formulas and assignments, and values of names that are no variables. -/
theorem run_without_isIdle_division :
  let s := withVariables .percent (.ofList [('a', 2), ('q', 1)])
  let ts : List Step := [.assign "q = 5".toList, .formula "8/a".toList, .assign "a+1".toList,
    .formula "8=a".toList, .set 'q' 3, .set 'a' 0, .assign "q=7".toList]
  let us : List Step := [.assign "q = 5".toList, .formula "8/a".toList, .set 'a' 0]
  s.IsInitial
    ∧ (s.effective ts).map Prod.snd = us
    ∧ s.run us = (s.effective ts).map (fun m => m.1.step m.2)
  := by
  intro s ts us
  have h : s.IsInitial := .withVariables _ _
  have hu : (s.effective ts).map Prod.snd = us := by decide +kernel
  refine ⟨h, hu, ?_⟩
  rw [← hu]
  apply (run_without_isIdle h ts).2.1

end Session

end SliderCalculator
