import Mathlib.Data.List.Induction
import SliderCalculator.Proofs.Session.Change
import SliderCalculator.Proofs.Slider.Range

/-!
# The history of a value

A name is a variable from the start of a session when it is preset, and from a formula on that
contains it when it was none before. It stays one as long as every formula contains it. Its value
goes back to the last time that it became one and to what it has been given since, and nothing
else in the history of the session matters: `get?_after_withVariables_iff`.

What a variable is given is snapped into the range of the slider, but a variable that a formula
brings in starts at zero, which may lie below the range: `contains_or_isFresh`.
-/

namespace SliderCalculator

namespace Step

/-- Whether every formula that steps type contains a letter. -/
def Keep (name : Char) (ts : List Step) : Prop :=
  ∀ f ∈ ts.filterMap typed?, name ∈ Formula.letters f

/-- The value that steps give to a name last. -/
def lastGiven? (name : Char) (ts : List Step) : Option Float :=
  (ts.filterMap (given? name)).getLast?

variable {name : Char} {t : Step} {ts us : List Step}

theorem keep_cons :
  Keep name (t :: ts) ↔ (∀ f, t.typed? = some f → name ∈ Formula.letters f) ∧ Keep name ts
  := by
  rw [Keep, Keep, List.filterMap_cons]
  cases h : t.typed? <;> simp

theorem keep_append :
  Keep name (ts ++ us) ↔ Keep name ts ∧ Keep name us
  := by
  simp only [Keep, List.filterMap_append, List.mem_append, or_imp, forall_and]

/-- What the first of several steps gives counts when no later one gives a value. -/
theorem lastGiven?_cons :
  lastGiven? name (t :: ts) = (lastGiven? name ts).or (t.given? name)
  := by
  rw [lastGiven?, lastGiven?, List.filterMap_cons]
  cases t.given? name with
  | none => rw [Option.or_none]
  | some x =>
    rw [List.getLast?_cons]
    cases (ts.filterMap (given? name)).getLast? <;> rfl

end Step

open Step

namespace Session

/-- Whether a name that is no variable before some formula of a run becomes one by it, and the
steps that follow the formula keep it. -/
def EntersBefore (s : Session) (name : Char) (ts following : List Step) : Prop :=
  ∃ us t f, ts = us ++ t :: following ∧ t.typed? = some f ∧ name ∈ Formula.letters f
    ∧ name ∉ (s.after us).values.names ∧ Keep name following

variable {s : Session} {name : Char} {x : Float} {ts vs : List Step}

/-- A step that keeps a variable leaves it with its value, or with the one that it gives. -/
theorem get?_step_of_keep {t : Step} (h : s.values.get? name = some x)
    (hk : ∀ f, t.typed? = some f → name ∈ Formula.letters f) :
  (s.step t).1.values.get? name = some (((t.given? name).map s.slider.snap).getD x)
  := by
  cases ht : t.typed? with
  | none =>
    rw [get?_step ht, h]
    rfl
  | some f =>
    rw [values_step_of_typed? ht, Variables.get?_detect, if_pos (hk f ht), given?_of_typed? ht, h]
    rfl

/-- Steps that keep a variable leave it with its value, or with the last one that they give. -/
theorem get?_after_of_keep (h : s.values.get? name = some x) (hk : Keep name ts) :
  (s.after ts).values.get? name = some (((lastGiven? name ts).map s.slider.snap).getD x)
  := by
  induction ts generalizing s x with
  | nil => apply h
  | cons t ts ih =>
    obtain ⟨ht, hk⟩ := keep_cons.mp hk
    apply (ih (get?_step_of_keep h ht) hk).trans
    rw [slider_step, lastGiven?_cons]
    cases lastGiven? name ts <;> rfl

/-- A name that a formula makes a variable has the value zero until it is given one. -/
theorem get?_after_of_entersBefore (h : s.EntersBefore name ts vs) :
  (s.after ts).values.get? name = some (((lastGiven? name vs).map s.slider.snap).getD 0.0)
  := by
  obtain ⟨us, t, f, rfl, ht, hf, hn, hk⟩ := h
  have hz : ((s.after us).step t).1.values.get? name = some 0.0 := by
    rw [values_step_of_typed? ht, Variables.get?_detect, if_pos hf,
      Variables.get?_eq_none_iff.mpr hn]
    rfl
  rw [after_append]
  apply (get?_after_of_keep hz hk).trans
  rw [slider_step, slider_after]

/-- A variable has been one from the start on, or since a formula that made it one. -/
theorem keep_or_entersBefore (h : name ∈ (s.after ts).values.names) :
  (name ∈ s.values.names ∧ Keep name ts) ∨ ∃ vs, s.EntersBefore name ts vs
  := by
  induction ts using List.reverseRecOn with
  | nil => exact .inl ⟨h, by simp [Keep]⟩
  | append_singleton ts t ih =>
    rw [after_concat] at h
    -- what the last step keeps goes on
    have extend (hk : Keep name [t]) (hn : name ∈ (s.after ts).values.names) :
        (name ∈ s.values.names ∧ Keep name (ts ++ [t]))
          ∨ ∃ vs, s.EntersBefore name (ts ++ [t]) vs := by
      obtain ⟨hs, hts⟩ | ⟨vs, us, u, f, rfl, hu, hf, hn, hvs⟩ := ih hn
      · left
        exact ⟨hs, keep_append.mpr ⟨hts, hk⟩⟩
      · right
        use vs ++ [t], us, u, f
        exact ⟨by simp, hu, hf, hn, keep_append.mpr ⟨hvs, hk⟩⟩
    cases ht : t.typed? with
    | none =>
      rw [names_step ht] at h
      apply extend _ h
      simp [Keep, ht]
    | some f =>
      rw [values_step_of_typed? ht, Variables.names_detect] at h
      by_cases hn : name ∈ (s.after ts).values.names
      · apply extend _ hn
        simpa [Keep, ht] using h
      · right
        use [], ts, t, f
        exact ⟨rfl, ht, h, hn, by simp [Keep]⟩

/-! ### Values by their history -/

/-- How a variable comes to its value in a run of a session with presets. -/
inductive HasHistory (slider : Slider) (presets : Variables) (name : Char) :
    List Step → Float → Prop where
  /-- It was preset, and all formulas contain it. It has the value that it was given last, or its
  preset value if it was given none. -/
  | preset {ts : List Step} {x : Float} (hx : presets.get? name = some x) (hk : Keep name ts) :
      HasHistory slider presets name ts (slider.snap ((lastGiven? name ts).getD x))
  /-- A formula made it a variable last. It has the value that it was given last since then, or
  zero if it was given none. -/
  | entered {ts vs : List Step} (h : (withVariables slider presets).EntersBefore name ts vs) :
      HasHistory slider presets name ts (((lastGiven? name vs).map slider.snap).getD 0.0)

variable {slider : Slider} {presets : Variables}

theorem get?_withVariables (slider : Slider) (presets : Variables) (name : Char) :
  (withVariables slider presets).values.get? name = (presets.get? name).map slider.snap
  := slider.get?_snapAll_entries presets name

/-- A variable of the beginning was preset. -/
theorem exists_preset_of_mem (h : name ∈ (withVariables slider presets).values.names) :
  ∃ x, presets.get? name = some x
  := by
  obtain ⟨y, hy⟩ := Variables.exists_get?_of_mem h
  rw [get?_withVariables, Option.map_eq_some_iff] at hy
  obtain ⟨x, hx, -⟩ := hy
  exact ⟨x, hx⟩

/-- The value of a preset variable that every formula contains. -/
theorem get?_after_of_preset (hx : presets.get? name = some x) (hk : Keep name ts) :
  ((withVariables slider presets).after ts).values.get? name
    = some (slider.snap ((lastGiven? name ts).getD x))
  := by
  have h : (withVariables slider presets).values.get? name = some (slider.snap x) := by
    rw [get?_withVariables, hx]
    rfl
  apply (get?_after_of_keep h hk).trans
  cases lastGiven? name ts <;> rfl

/-- The value of a variable after a run is the one that its history determines. -/
theorem get?_after_withVariables_iff :
  ((withVariables slider presets).after ts).values.get? name = some x
    ↔ HasHistory slider presets name ts x
  := by
  constructor
  · intro h
    obtain ⟨hn, hk⟩ | ⟨vs, hvs⟩ := keep_or_entersBefore (Variables.mem_names_of_get? h)
    · obtain ⟨y, hy⟩ := exists_preset_of_mem hn
      rw [get?_after_of_preset hy hk] at h
      cases h
      exact .preset hy hk
    · rw [get?_after_of_entersBefore hvs] at h
      cases h
      exact .entered hvs
  · intro h
    cases h with
    | preset hx hk => apply get?_after_of_preset hx hk
    | entered h => apply get?_after_of_entersBefore h

/-- Whether a formula of a run made a name a variable last, and no value has been given to it
since. -/
def IsFresh (s : Session) (name : Char) (ts : List Step) : Prop :=
  ∃ vs, s.EntersBefore name ts vs ∧ lastGiven? name vs = none

/-- A value of a session lies in the range of the slider, or it is the zero at which a variable
starts, below the range. -/
theorem contains_or_isFresh
    (h : (name, x) ∈ ((withVariables slider presets).after ts).values.entries) :
  slider.Contains x
    ∨ 0.0 < slider.minimum ∧ x = 0.0 ∧ (withVariables slider presets).IsFresh name ts
  := by
  have hx := Variables.get?_eq_some_iff.mpr h
  obtain ⟨hn, hk⟩ | ⟨vs, hvs⟩ := keep_or_entersBefore (Variables.mem_names_of_get? hx)
  · left
    obtain ⟨y, hy⟩ := exists_preset_of_mem hn
    rw [get?_after_of_preset hy hk] at hx
    cases hx
    apply slider.contains_snap
  · rw [get?_after_of_entersBefore hvs] at hx
    cases hg : lastGiven? name vs with
    | some y =>
      left
      rw [hg] at hx
      cases hx
      apply slider.contains_snap
    | none =>
      rw [hg] at hx
      cases hx
      by_cases hl : 0.0 < slider.minimum
      · right
        exact ⟨hl, rfl, vs, hvs, hg⟩
      · left
        apply Slider.contains_zero hl

/-- A slider whose range begins above zero. -/
def aboveZero : Slider where
  minimum := 2
  maximum := 3
  step := 0.5
  isFinite := by decide +kernel
  minimum_nonneg := by decide +kernel
  minimum_le_maximum := by decide +kernel
  step_nonneg := by decide +kernel

/-- Of the letters of a formula one is given a value, and the other one is fresh. -/
theorem contains_or_isFresh_aboveZero :
  let s := withVariables aboveZero Variables.empty
  let ts : List Step := [.formula ['a', 'b'], .set 'b' 2.25]
  ('a', 0.0) ∈ (s.after ts).values.entries
    ∧ ¬ aboveZero.Contains 0.0 ∧ 0.0 < aboveZero.minimum ∧ s.IsFresh 'a' ts
  := by
  intro s ts
  have h : ('a', 0.0) ∈ (s.after ts).values.entries :=
    Variables.get?_eq_some_iff.mp (by decide +kernel)
  have hc : ¬ aboveZero.Contains 0.0 := by decide +kernel
  obtain ⟨hl, -, hf⟩ := (contains_or_isFresh h).resolve_left hc
  exact ⟨h, hc, hl, hf⟩

/-- A letter of the first formula starts below the range. -/
theorem not_contains_fresh :
  ¬ ∀ (slider : Slider) (presets : Variables) (ts : List Step),
    ∀ e ∈ ((withVariables slider presets).after ts).values.entries, slider.Contains e.2
  := by
  intro h
  have ha := h aboveZero Variables.empty [.formula ['a']] ('a', 0.0)
    (Variables.get?_eq_some_iff.mp (by decide +kernel))
  revert ha
  decide +kernel

end Session

end SliderCalculator
