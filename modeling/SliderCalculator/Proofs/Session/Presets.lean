import SliderCalculator.Proofs.Assignment.Grammar
import SliderCalculator.Proofs.Calculation.Values
import SliderCalculator.Proofs.Slider.Range
import SliderCalculator.Session

/-!
# Calculating at once and in a session

A formula whose letters are all assigned can be calculated at once, with the snapped values of
the assignments, or typed into a session with the assigned values as presets. The session snaps
what is left when repeated names have been dropped, and keeps the letters of the formula only, in
another order, but the result is the same: `setFormula_withVariables`.
-/

namespace SliderCalculator

open Formula

/-- The name that is assigned a value is a letter. -/
theorem Assignment.isAlpha_name {t : Text} {a : Assignment} (h : read t = .ok a) :
  a.name.isAlpha = true
  := by
  apply (read_eq_ok_iff.mp h).isAlpha

/-! ### Plain variables -/

variable {slider : Slider} {v : Variables} {entries : List (Char × Float)}

/-- Snapped values of letters are plain. -/
theorem Slider.isPlain_snapAll (h : ∀ e ∈ entries, e.1.isAlpha = true) :
  (slider.snapAll entries).IsPlain
  := by
  constructor
  case isAlpha =>
    intro c hc
    obtain ⟨e, he, rfl⟩ := List.mem_map.mp hc
    obtain ⟨d, hd, rfl⟩ := exists_mem_of_mem_snapAll he
    apply h d hd
  case isFinite =>
    intro e he
    obtain ⟨d, -, rfl⟩ := exists_mem_of_mem_snapAll he
    apply (slider.contains_snap d.2).isFinite

/-- The variables of a formula are plain when those before were. -/
theorem Variables.IsPlain.detect (h : v.IsPlain) (formula : Text) :
  (Variables.detect formula v).IsPlain
  := by
  constructor
  case isAlpha =>
    intro c hc
    rw [names_detect] at hc
    apply (mem_letters.mp hc).2
  case isFinite =>
    intro e he
    obtain ⟨c, -, rfl⟩ := List.mem_map.mp he
    cases hx : v.get? c with
    | none =>
      have hz : (0.0 : Float).isFinite = true := by decide +kernel
      apply hz
    | some x => apply h.isFinite (c, x) (get?_eq_some_iff.mp hx)

/-! ### Presets -/

/-- The letters of a formula have the values in a session with presets that they have when all
presets are snapped at once. -/
theorem get?_detect_snapAll {formula : Text}
    (h : ∀ c ∈ letters formula, c ∈ entries.map Prod.fst) :
  ∀ c ∈ letters formula,
    (Variables.detect formula (slider.snapAll (Variables.ofList entries).entries)).get? c
      = (slider.snapAll entries).get? c
  := by
  intro c hc
  obtain ⟨x, hx⟩ := Variables.exists_get?_of_mem (Variables.mem_names_ofList.mpr (h c hc))
  rw [Variables.get?_detect, if_pos hc, slider.get?_snapAll_entries, slider.get?_snapAll, hx]
  rfl

/-- A formula typed first into a session with assigned presets has the result that it has when it
is calculated with all the assigned values, whatever they are, in whatever order, and whether or
not names are repeated or foreign to the formula. -/
theorem Session.setFormula_withVariables (slider : Slider) {as : List Assignment} {formula : Text}
    (hr : ∀ a ∈ as, ∃ t, Assignment.read t = .ok a)
    (hf : check formula = .ok ())
    (hl : ∀ c ∈ letters formula, ∃ a ∈ as, a.name = c) :
  let entries := as.map fun a => (a.name, a.value)
  ((Session.withVariables slider (.ofList entries)).setFormula formula).2
    = .answered (calculate formula (slider.snapAll entries))
  := by
  intro entries
  have ha : ∀ e ∈ entries, e.1.isAlpha = true := by
    intro e he
    obtain ⟨a, ha, rfl⟩ := List.mem_map.mp he
    obtain ⟨t, ht⟩ := hr a ha
    apply Assignment.isAlpha_name ht
  have hp : (slider.snapAll (Variables.ofList entries).entries).IsPlain := by
    apply Slider.isPlain_snapAll
    intro e he
    apply ha e (Variables.mem_of_mem_ofList he)
  have hn : ∀ c ∈ letters formula, c ∈ entries.map Prod.fst := by
    intro c hc
    obtain ⟨a, ha, rfl⟩ := hl c hc
    apply List.mem_map.mpr ⟨_, List.mem_map_of_mem ha, rfl⟩
  rw [Session.setFormula, hf]
  apply congrArg Outcome.answered
  apply calculate_congr (hp.detect formula) (Slider.isPlain_snapAll ha)
  apply get?_detect_snapAll hn

/-- A name that is assigned a value twice, and one that the formula does not use. -/
theorem Session.setFormula_withVariables_repeated :
  let as : List Assignment := [⟨'b', 7⟩, ⟨'a', 2⟩, ⟨'q', 1⟩, ⟨'a', 150⟩]
  let entries := as.map fun a => (a.name, a.value)
  let formula := "2a + b".toList
  (∀ a ∈ as, ∃ t, Assignment.read t = .ok a)
    ∧ check formula = .ok ()
    ∧ (∀ c ∈ letters formula, ∃ a ∈ as, a.name = c)
    ∧ ((Session.withVariables .percent (.ofList entries)).setFormula formula).2
      = .answered (calculate formula (Slider.percent.snapAll entries))
  := by
  intro as entries formula
  have hr : ∀ a ∈ as, ∃ t, Assignment.read t = .ok a := by
    simp only [as, List.forall_mem_cons]
    exact ⟨⟨"b=7".toList, by decide +kernel⟩, ⟨"a = 2".toList, by decide +kernel⟩,
      ⟨"q=1.0".toList, by decide +kernel⟩, ⟨"a=150".toList, by decide +kernel⟩, by simp⟩
  have hf : check formula = .ok () := by decide +kernel
  have hl : ∀ c ∈ letters formula, ∃ a ∈ as, a.name = c := by
    have h : letters formula = ['a', 'b'] := by decide +kernel
    rw [h]
    simp [as]
  exact ⟨hr, hf, hl, Session.setFormula_withVariables .percent hr hf hl⟩

end SliderCalculator
