import Mathlib.Data.List.Basic
import SliderCalculator.Formula.Expression
import SliderCalculator.Proofs.Number.Text
import SliderCalculator.Proofs.Variables.Lookup

/-!
# Substitution at once

Names are replaced one after the other, so a name in the text of a value would be replaced
in its turn. Where the names are letters and the values are finite this does not happen,
and substitution is the same as looking up all characters at once.
-/

namespace SliderCalculator

namespace Formula

/-- The text that stands for a character: that of its value if entries name it. -/
def spelling (entries : List (Char × Float)) (c : Char) : Text :=
  match entries.lookup c with
  | some x => Number.text x
  | none => [c]

/-- A character that is not a name stands for itself. -/
theorem spelling_of_not_mem {entries : List (Char × Float)} {c : Char}
    (h : c ∉ entries.map Prod.fst) :
  spelling entries c = [c]
  := by
  rw [spelling, Variables.lookup_of_not_mem h]

/-- Looking up entries of which the first one names the character or does not. -/
theorem spelling_cons (e : Char × Float) (es : List (Char × Float)) (c : Char) :
  spelling (e :: es) c = if c = e.1 then Number.text e.2 else spelling es c
  := by
  obtain ⟨name, x⟩ := e
  split
  case isTrue h => simp [spelling, h]
  case isFalse h =>
    have hb : (c == name) = false := by simpa using h
    simp [spelling, List.lookup_cons, hb]

/-- A text without names is kept. -/
theorem flatMap_spelling_eq_self {entries : List (Char × Float)} {t : Text}
    (h : ∀ c ∈ t, c ∉ entries.map Prod.fst) :
  t.flatMap (spelling entries) = t
  := by
  calc t.flatMap (spelling entries)
    _ = t.flatMap fun c => [c] := List.flatMap_congr fun c hc => spelling_of_not_mem (h c hc)
    _ = t := List.flatMap_singleton' t

/-- Names are replaced at once when the value of no name in the text is written with
names. -/
theorem foldl_replaceName (entries : List (Char × Float)) (t : Text)
    (h : ∀ e ∈ entries, e.1 ∈ t → ∀ c ∈ Number.text e.2, c ∉ entries.map Prod.fst) :
  entries.foldl (fun t e => replaceName e.1 e.2 t) t = t.flatMap (spelling entries)
  := by
  induction entries generalizing t with
  | nil => apply (flatMap_spelling_eq_self (by simp)).symm
  | cons e es ih =>
    have hes : ∀ c, c ∉ (e :: es).map Prod.fst → c ∉ es.map Prod.fst := by
      intro c hc hm
      apply hc (List.mem_cons_of_mem _ hm)
    have ht : ∀ e' ∈ es, e'.1 ∈ replaceName e.1 e.2 t → e'.1 ∈ t := by
      intro e' he' hm
      obtain ⟨c, hc, hm⟩ := List.mem_flatMap.mp hm
      split at hm
      case isTrue he =>
        -- a name that comes with the value of another one
        subst he
        exact absurd (List.mem_map_of_mem he') (hes _ (h e List.mem_cons_self hc _ hm))
      case isFalse =>
        obtain rfl := List.mem_singleton.mp hm
        apply hc
    rw [List.foldl_cons, ih, replaceName, List.flatMap_assoc]
    · apply List.flatMap_congr
      intro c hc
      rw [spelling_cons]
      split
      case isTrue he =>
        subst he
        apply flatMap_spelling_eq_self
        intro c' hc'
        apply hes _ (h e List.mem_cons_self hc c' hc')
      case isFalse => simp
    · intro e' he' hm c hc
      apply hes c (h e' (List.mem_cons_of_mem _ he') (ht e' he' hm) c hc)

variable {values : Variables}

/-- What holds of a text and is kept when a name is replaced holds after substitution. -/
theorem substitute_induction {motive : Text → Prop} {t : Text} (h : motive t)
    (step : ∀ e ∈ values.entries, ∀ t, motive t → motive (replaceName e.1 e.2 t)) :
  motive (substitute values t)
  := List.foldlRecOn values.entries _ h fun t ht e he => step e he t ht

/-- Substitution looks up all characters at once when the value of no name in the text is
written with names. -/
theorem substitute_eq_of_not_mem {t : Text}
    (h : ∀ e ∈ values.entries, e.1 ∈ t → ∀ c ∈ Number.text e.2, c ∉ values.names) :
  substitute values t = t.flatMap (spelling values.entries)
  := foldl_replaceName values.entries t h

/-- Substitution looks up all characters at once when the names are letters and the values of those
in the text are finite. -/
theorem substitute_eq_flatMap_of_mem {t : Text} (hn : ∀ c ∈ values.names, c.isAlpha = true)
    (hv : ∀ e ∈ values.entries, e.1 ∈ t → e.2.isFinite = true) :
  substitute values t = t.flatMap (spelling values.entries)
  := by
  apply substitute_eq_of_not_mem
  intro e he ht c hc hm
  have ha := Number.isAlpha_of_mem_text (hv e he ht) hc
  rw [hn c hm] at ha
  contradiction

variable {v w : Variables} {t : Text}

/-- Substitution depends on the values of the characters of the text only. -/
theorem substitute_eq_of_get?_eq (hn : ∀ c ∈ v.names, c.isAlpha = true)
    (hv : ∀ e ∈ v.entries, e.1 ∈ t → e.2.isFinite = true) (hw : ∀ c ∈ w.names, c.isAlpha = true)
    (h : ∀ c ∈ t, w.get? c = v.get? c) :
  substitute w t = substitute v t
  := by
  rw [substitute_eq_flatMap_of_mem hn hv, substitute_eq_flatMap_of_mem hw]
  · apply List.flatMap_congr
    intro c hc
    have hl : w.entries.lookup c = v.entries.lookup c := h c hc
    rw [spelling, spelling, hl]
  · intro e he ht
    have hg : v.get? e.1 = some e.2 := by
      rw [← h e.1 ht]
      apply Variables.get?_eq_some_iff.mpr he
    apply hv e (Variables.get?_eq_some_iff.mp hg) ht

/-- No name is left where names are letters and the values of those in the text are finite. -/
theorem not_mem_substitute (hn : ∀ c ∈ v.names, c.isAlpha = true)
    (hv : ∀ e ∈ v.entries, e.1 ∈ t → e.2.isFinite = true) {c : Char} (hc : c ∈ v.names) :
  c ∉ substitute v t
  := by
  rw [substitute_eq_flatMap_of_mem hn hv, List.mem_flatMap]
  rintro ⟨d, hd, hm⟩
  rw [spelling] at hm
  split at hm
  next x hx =>
    have ha := Number.isAlpha_of_mem_text (hv _ (Variables.get?_eq_some_iff.mp hx) hd) hm
    rw [hn c hc] at ha
    contradiction
  next hx =>
    obtain rfl := List.mem_singleton.mp hm
    exact Variables.get?_eq_none_iff.mp hx hc

/-- Names that are letters are replaced all at once, each by the text of its value, when the values
of those in the text are finite. So the order of the entries does not matter, nor do names that are
not in the text, whatever their values are, and no name is left. -/
theorem substitute_simultaneous (hn : ∀ c ∈ v.names, c.isAlpha = true)
    (hv : ∀ e ∈ v.entries, e.1 ∈ t → e.2.isFinite = true) :
  substitute v t = t.flatMap (spelling v.entries)
    ∧ (∀ w : Variables, w.entries.Perm v.entries → substitute w t = substitute v t)
    ∧ (∀ w : Variables, (∀ c ∈ w.names, c.isAlpha = true) → (∀ c ∈ t, w.get? c = v.get? c) →
      substitute w t = substitute v t)
    ∧ ∀ c ∈ v.names, c ∉ substitute v t
  := by
  refine ⟨substitute_eq_flatMap_of_mem hn hv, ?_, ?_, ?_⟩
  · intro w hw
    apply substitute_eq_of_get?_eq hn hv
    · intro c hc
      apply hn c ((hw.map Prod.fst).mem_iff.mp hc)
    · intro c _
      apply Variables.get?_eq_of_perm hw
  · intro w hw h
    apply substitute_eq_of_get?_eq hn hv hw h
  · intro c hc
    apply not_mem_substitute hn hv hc

/-- Variables in another order and with one more name. -/
theorem substitute_eq_reordered :
  let v := Variables.ofList [('a', 29), ('b', 32.5)]
  let w := Variables.ofList [('c', 7), ('b', 32.5), ('a', 29)]
  let t := "2*a+b^a".toList
  (∀ c ∈ v.names, c.isAlpha = true) ∧ (∀ e ∈ v.entries, e.1 ∈ t → e.2.isFinite = true)
    ∧ substitute w t = substitute v t
  := by
  intro v w t
  have hn : ∀ c ∈ v.names, c.isAlpha = true := List.all_eq_true.mp (by decide +kernel)
  have hv : ∀ e ∈ v.entries, e.1 ∈ t → e.2.isFinite = true := by decide +kernel
  have hw : ∀ c ∈ w.names, c.isAlpha = true := List.all_eq_true.mp (by decide +kernel)
  have h : (t.all fun c => w.get? c = v.get? c) = true := by decide +kernel
  obtain ⟨-, -, heq, -⟩ := substitute_simultaneous hn hv
  exact ⟨hn, hv, heq w hw fun c hc => of_decide_eq_true (List.all_eq_true.mp h c hc)⟩

-- a value that is not finite is written with letters, which are names in their turn
example :
  substitute (Variables.ofList [('x', 1 / 0), ('i', 1)]) ['x'] = "1nf".toList
  := by decide +kernel

end Formula

end SliderCalculator
