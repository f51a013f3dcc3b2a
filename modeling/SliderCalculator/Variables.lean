import SliderCalculator.Formula.Alphabet

/-!
# Variables

The variables of a formula are names with values, each name once, in an order of their
own: a name keeps the place where it was first entered when its value changes.
-/

namespace SliderCalculator

/-- Names with values. The order of the entries matters, and no name occurs twice. -/
structure Variables where
  entries : List (Char × Float)
  nodup_names : (entries.map Prod.fst).Nodup

namespace Variables

/-- Variables are determined by their entries. -/
@[ext]
theorem ext {v w : Variables} (h : v.entries = w.entries) :
  v = w
  := by
  cases v
  cases w
  cases h
  rfl

instance : DecidableEq Variables := fun _ _ =>
  decidable_of_iff _ ⟨ext, congrArg entries⟩

/-- No variables. -/
def empty : Variables where
  entries := []
  nodup_names := List.nodup_nil

instance : Inhabited Variables :=
  ⟨empty⟩

/-- The names in order. -/
def names (v : Variables) : List Char :=
  v.entries.map Prod.fst

/-- The value of a name. -/
def get? (v : Variables) (name : Char) : Option Float :=
  v.entries.lookup name

/-- The entries with another value for a name. -/
def replaceValue (name : Char) (value : Float) (entries : List (Char × Float)) :
    List (Char × Float) :=
  entries.map fun e => if e.1 = name then (name, value) else e

@[simp]
theorem map_fst_replaceValue (name : Char) (value : Float) (entries : List (Char × Float)) :
  (replaceValue name value entries).map Prod.fst = entries.map Prod.fst
  := by
  simp only [replaceValue, List.map_map]
  apply List.map_congr_left
  intro e _
  by_cases h : e.1 = name <;> simp [h]

/-- Gives a name a value: at its place when it has one, and at the end otherwise. -/
def set (v : Variables) (name : Char) (value : Float) : Variables :=
  if h : name ∈ v.names then
    { entries := replaceValue name value v.entries
      nodup_names := by simpa using v.nodup_names }
  else
    { entries := v.entries ++ [(name, value)]
      nodup_names := by
        rw [List.map_append, List.nodup_append]
        refine ⟨v.nodup_names, by simp, ?_⟩
        rintro a ha b hb rfl
        simp only [List.map_cons, List.map_nil, List.mem_singleton] at hb
        exact h (hb ▸ ha) }

/-- The variables that entries set one after the other make. -/
def ofList (entries : List (Char × Float)) : Variables :=
  entries.foldl (fun v e => v.set e.1 e.2) empty

/-- The letters of a formula as variables, in the order in which they first appear. A
letter that had a value keeps it, and others start at zero. -/
def detect (formula : Text) (previous : Variables) : Variables where
  entries := (Formula.letters formula).map fun name =>
    (name, (previous.get? name).getD 0.0)
  nodup_names := by
    simpa [List.map_map, Function.comp_def] using Formula.nodup_letters formula

/-- The names after a value is set. -/
theorem names_set (v : Variables) (name : Char) (value : Float) :
  (v.set name value).names = if name ∈ v.names then v.names else v.names ++ [name]
  := by
  unfold set
  split
  · simp [names]
  · simp [names]

@[simp]
theorem names_detect (formula : Text) (previous : Variables) :
  (detect formula previous).names = Formula.letters formula
  := by
  simp [detect, names, Function.comp_def]

/-- What no entry names is not found. -/
theorem lookup_of_not_mem {entries : List (Char × Float)} {c : Char}
    (h : c ∉ entries.map Prod.fst) :
  entries.lookup c = none
  := by
  rw [List.lookup_eq_none_iff]
  intro e he
  rw [bne_iff_ne]
  rintro rfl
  apply h (List.mem_map_of_mem he)

/-- Looking up a name in entries with another value for a name. -/
theorem lookup_replaceValue
    (name other : Char) (value : Float) (entries : List (Char × Float)) :
  (replaceValue name value entries).lookup other
    = if other = name ∧ name ∈ entries.map Prod.fst then some value else entries.lookup other
  := by
  induction entries with
  | nil => simp [replaceValue]
  | cons e es ih =>
    obtain ⟨n, x⟩ := e
    simp only [replaceValue] at ih
    simp only [replaceValue, List.map_cons]
    by_cases hn : n = name
    · subst hn
      by_cases ho : other = n
      · simp [ho]
      · have : (other == n) = false := by simpa using ho
        simp [List.lookup_cons, this, ih, ho]
    · by_cases ho : other = n
      · subst ho
        simp [hn]
      · have : (other == n) = false := by simpa using ho
        have hm : name ∈ n :: es.map Prod.fst ↔ name ∈ es.map Prod.fst := by
          simp [Ne.symm hn]
        simp only [hn, if_false, List.lookup_cons, this, ih, hm]

/-- The value of a name after a value is set. -/
@[simp]
theorem get?_set (v : Variables) (name other : Char) (value : Float) :
  (v.set name value).get? other = if other = name then some value else v.get? other
  := by
  unfold set
  split
  case isTrue h =>
    simp only [names] at h
    simp [get?, lookup_replaceValue, h]
  case isFalse h =>
    simp only [get?, List.lookup_append]
    by_cases ho : other = name
    · subst ho
      simp [lookup_of_not_mem h]
    · have : (other == name) = false := by simpa using ho
      simp [List.lookup_cons, this, ho]

end Variables

end SliderCalculator
