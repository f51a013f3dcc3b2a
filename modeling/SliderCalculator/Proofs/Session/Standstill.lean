import SliderCalculator.Proofs.Session.Change
import SliderCalculator.Proofs.Slider.Whole

/-!
# Moving a slider to where it stands

On a slider with whole numbers every value is the maximum or a whole number of steps above the
minimum, and a variable that is given the value that it has keeps it:
`standsFor_snap_and_agrees_setVariable`. The session stays the very same, unless the value is the
negative zero, which may lose its sign.
-/

namespace SliderCalculator.Session

open Number

/-- Whether a session is another one, apart from the sign of a zero: if the value of a name is the
negative zero in the other one, then it may be a zero of either sign, and the result is that of the
formula with it. -/
structure Agrees (s t : Session) (name : Char) : Prop where
  slider : s.slider = t.slider
  formula : s.formula = t.formula
  names : s.values.names = t.values.names
  others : ∀ n, n ≠ name → s.values.get? n = t.values.get? n
  value : ∃ x y, s.values.get? name = some x ∧ t.values.get? name = some y ∧ (x == y) = true
  result : s.ShowsResult
  eq : t.values.get? name ≠ some (-0.0) → s = t

variable {s : Session} {name : Char} {x : Float}

/-- Nothing is changed by a value that a variable has already and that is snapped to itself. -/
theorem setVariable_eq_self (hs : s.ShowsResult) (h : s.values.get? name = some x)
    (hx : s.slider.snap x = x) :
  (s.setVariable name x).1 = s
  := by
  rw [setVariable, if_pos (Variables.mem_names_of_get? h), hx, Variables.set_of_get? h, recalculate,
    ← hs]

/-- A variable is given the value that it has been snapped to. -/
theorem agrees_setVariable {a b c : Nat} (h : s.slider.IsWhole a b c) (hs : s.ShowsResult)
    (hx : s.values.get? name = some (s.slider.snap x)) :
  Agrees (s.setVariable name (s.slider.snap x)).1 s name
  := by
  have ht : (Step.set name (s.slider.snap x)).typed? = none := rfl
  have hstep : (s.setVariable name (s.slider.snap x)).1
      = (s.step (.set name (s.slider.snap x))).1 := rfl
  rw [hstep]
  constructor
  case slider => apply slider_step
  case formula => apply formula_step ht
  case names => apply names_step ht
  case others =>
    intro n hn
    have hg : (Step.set name (s.slider.snap x)).given? n = none := if_neg hn.symm
    rw [get?_step ht, hg]
    simp
  case value =>
    have hg : (Step.set name (s.slider.snap x)).given? name = some (s.slider.snap x) := if_pos rfl
    refine ⟨s.slider.snap (s.slider.snap x), s.slider.snap x, ?_, hx, h.snap_snap_beq x⟩
    rw [get?_step ht, hg, hx]
    rfl
  case result => apply hs.step
  case eq =>
    intro hn
    rw [hx] at hn
    apply setVariable_eq_self hs hx
    apply h.snap_snap_eq
    intro hz
    apply hn (congrArg some hz)

/-- On a slider with whole numbers every float is snapped to the maximum or to a whole number of
steps above the minimum, and what has been snapped is snapped to the same number, as is every whole
number of steps. A variable of a session that is moved to where it stands stays there, and the
session stays as it is. -/
theorem standsFor_snap_and_agrees_setVariable {slider : Slider} {a b c : Nat}
    (h : slider.IsWhole a b c) :
  (∀ x,
    (StandsFor (slider.snap x) b
        ∨ ∃ k : Nat, a + k * c ≤ b ∧ StandsFor (slider.snap x) (a + k * c : Nat))
      ∧ (slider.snap (slider.snap x) == slider.snap x) = true)
    ∧ (∀ (x : Float) (k : Nat), a + k * c ≤ b → StandsFor x (a + k * c : Nat) →
      StandsFor (slider.snap x) (a + k * c : Nat))
    ∧ ∀ (s : Session) (ts : List Step) (name : Char) (x : Float), s.IsInitial → s.slider = slider →
      (s.after ts).values.get? name = some (slider.snap x) →
      Agrees ((s.after ts).setVariable name (slider.snap x)).1 (s.after ts) name
  := by
  refine ⟨?_, fun x k => h.snap_of_standsFor, ?_⟩
  · intro x
    obtain ⟨n, rfl | ⟨k, hk, rfl⟩, hy, -⟩ := h.snap_standsFor x
    · exact ⟨.inl hy, h.snap_snap_beq x⟩
    · exact ⟨.inr ⟨k, hk, hy⟩, h.snap_snap_beq x⟩
  · rintro s ts name x hs rfl hx
    have hslider := s.slider_after ts
    rw [← hslider] at h hx ⊢
    apply agrees_setVariable h (hs.showsResult.after ts) hx

/-- A value between two whole numbers is snapped to one of them, and stays there. -/
theorem standsFor_snap_and_agrees_setVariable_percent :
  let s := withVariables .percent (.ofList [('a', 37.5)])
  let ts : List Step := [.formula "2a".toList]
  Slider.percent.IsWhole 0 100 1
    ∧ s.IsInitial ∧ (s.after ts).values.get? 'a' = some (Slider.percent.snap 37.5)
    ∧ StandsFor (Slider.percent.snap 37.5) (0 + 38 * 1 : Nat)
    ∧ StandsFor (Slider.percent.snap 38) (0 + 38 * 1 : Nat)
    ∧ (Slider.percent.snap (Slider.percent.snap 37.5) == Slider.percent.snap 37.5) = true
    ∧ Agrees ((s.after ts).setVariable 'a' (Slider.percent.snap 37.5)).1 (s.after ts) 'a'
  := by
  intro s ts
  have h := Slider.isWhole_percent
  have hs : s.IsInitial := .withVariables _ _
  have hx : (s.after ts).values.get? 'a' = some (Slider.percent.snap 37.5) := by decide +kernel
  obtain ⟨hsnap, hgrid, hagrees⟩ := standsFor_snap_and_agrees_setVariable h
  refine ⟨h, hs, hx, ?_, ?_, (hsnap 37.5).2, hagrees s ts 'a' 37.5 hs rfl hx⟩
  · decide +kernel
  · apply hgrid 38 38 (by decide)
    decide +kernel

end SliderCalculator.Session
