import SliderCalculator.Slider

/-!
# Values of names

What variables say about a name is the value that it is looked up with. Entries set one after
the other leave each name with its last value, so snapping the values before or after the
entries are set comes to the same: `get?_snapAll`.
-/

namespace SliderCalculator

namespace Variables

variable {v w : Variables} {c : Char} {x : Float} {entries : List (Char × Float)}

/-- In entries without repetition the entry of a name is found. -/
theorem lookup_of_mem (hn : (entries.map Prod.fst).Nodup) (h : (c, x) ∈ entries) :
  entries.lookup c = some x
  := by
  induction entries with
  | nil => contradiction
  | cons e es ih =>
    obtain ⟨name, y⟩ := e
    obtain ⟨hname, hn⟩ := List.nodup_cons.mp hn
    obtain he | he := List.mem_cons.mp h
    · cases he
      apply List.lookup_cons_self
    · have hc : (c == name) = false := by
        rw [beq_eq_false_iff_ne]
        rintro rfl
        apply hname (List.mem_map.mpr ⟨_, he, rfl⟩)
      rw [List.lookup_cons, hc]
      apply ih hn he

/-- A name has the value of its entry. -/
theorem get?_eq_some_iff :
  v.get? c = some x ↔ (c, x) ∈ v.entries
  := by
  constructor
  · intro h
    obtain ⟨es, es', he, -⟩ := List.lookup_eq_some_iff.mp h
    rw [he]
    apply List.mem_append_right _ List.mem_cons_self
  · apply lookup_of_mem v.nodup_names

/-- What is no name has no value. -/
theorem get?_eq_none_iff :
  v.get? c = none ↔ c ∉ v.names
  := by
  rw [Option.eq_none_iff_forall_ne_some]
  simp [get?_eq_some_iff, names]

theorem mem_names_of_get? (h : v.get? c = some x) :
  c ∈ v.names
  := List.mem_map_of_mem (get?_eq_some_iff.mp h)

/-- Nothing is changed by a value that a name has already. -/
theorem set_of_get? (h : v.get? c = some x) :
  v.set c x = v
  := by
  have he : replaceValue c x v.entries = v.entries := by
    apply (List.map_congr_left _).trans (List.map_id _)
    rintro ⟨n, y⟩ he
    split
    case isTrue hn =>
      obtain rfl : n = c := hn
      have hy := get?_eq_some_iff.mpr he
      rw [h] at hy
      cases hy
      rfl
    case isFalse => rfl
  ext1
  rw [set, dif_pos (mem_names_of_get? h)]
  apply he

theorem exists_get?_of_mem (h : c ∈ v.names) :
  ∃ x, v.get? c = some x
  := by
  rw [← Option.ne_none_iff_exists', ne_eq, get?_eq_none_iff]
  simpa using h

/-- The value of a name does not depend on the order of the entries. -/
theorem get?_eq_of_perm (h : w.entries.Perm v.entries) (c : Char) :
  w.get? c = v.get? c
  := by
  apply Option.ext
  intro x
  rw [get?_eq_some_iff, get?_eq_some_iff, h.mem_iff]

/-- The letters of a formula keep the values that they had, and others start at zero. -/
theorem get?_detect (formula : Text) (previous : Variables) (c : Char) :
  (detect formula previous).get? c
    = if c ∈ Formula.letters formula then some ((previous.get? c).getD 0.0) else none
  := by
  split
  case isTrue h =>
    apply get?_eq_some_iff.mpr
    exact List.mem_map_of_mem h
  case isFalse h =>
    rw [get?_eq_none_iff, names_detect]
    apply h

/-! ### Entries set one after the other -/

/-- Setting the entries of variables without repetition. -/
theorem get?_foldl_set (hn : (entries.map Prod.fst).Nodup) (v : Variables) (c : Char) :
  (entries.foldl (fun v e => v.set e.1 e.2) v).get? c = (entries.lookup c).or (v.get? c)
  := by
  induction entries generalizing v with
  | nil => rfl
  | cons e es ih =>
    obtain ⟨name, x⟩ := e
    obtain ⟨hname, hn⟩ := List.nodup_cons.mp hn
    rw [List.foldl_cons, ih hn, get?_set, List.lookup_cons]
    split
    case isTrue h =>
      subst h
      simp [lookup_of_not_mem hname]
    case isFalse h => rw [beq_false_of_ne h]

/-- Variables are made by setting their entries. -/
theorem get?_ofList_entries (v : Variables) (c : Char) :
  (ofList v.entries).get? c = v.get? c
  := by
  rw [ofList, get?_foldl_set v.nodup_names, get?_eq_none_iff.mpr List.not_mem_nil, Option.or_none]
  rfl

/-- Setting entries whose values have been changed changes the values. -/
theorem get?_foldl_set_map (f : Float → Float) (h : ∀ c, w.get? c = (v.get? c).map f) (c : Char) :
  ((entries.map fun e => (e.1, f e.2)).foldl (fun v e => v.set e.1 e.2) w).get? c
    = ((entries.foldl (fun v e => v.set e.1 e.2) v).get? c).map f
  := by
  induction entries generalizing v w with
  | nil => apply h
  | cons e es ih =>
    apply ih
    intro d
    rw [get?_set, get?_set, h]
    split <;> rfl

/-- Every name that is set is a name then. -/
theorem mem_names_foldl_set :
  c ∈ (entries.foldl (fun v e => v.set e.1 e.2) v).names
    ↔ c ∈ v.names ∨ c ∈ entries.map Prod.fst
  := by
  induction entries generalizing v with
  | nil => simp
  | cons e es ih =>
    rw [List.foldl_cons, ih, names_set, List.map_cons, List.mem_cons]
    split
    case isTrue h => grind
    case isFalse => rw [List.mem_append, List.mem_singleton, or_assoc]

theorem mem_names_ofList :
  c ∈ (ofList entries).names ↔ c ∈ entries.map Prod.fst
  := by
  rw [ofList, mem_names_foldl_set]
  simp [empty, names]

/-- What is entered is one of the entries that are set. -/
theorem mem_of_mem_set {e : Char × Float} (h : e ∈ (v.set c x).entries) :
  e ∈ v.entries ∨ e = (c, x)
  := by
  rw [set] at h
  split at h
  · obtain ⟨d, hd, rfl⟩ := List.mem_map.mp h
    split
    · exact .inr rfl
    · exact .inl hd
  · simpa using h

theorem mem_of_mem_foldl_set {e : Char × Float}
    (h : e ∈ (entries.foldl (fun v e => v.set e.1 e.2) v).entries) :
  e ∈ v.entries ∨ e ∈ entries
  := by
  induction entries generalizing v with
  | nil => exact .inl h
  | cons d ds ih =>
    obtain h | h := ih h
    · obtain h | h := mem_of_mem_set h
      · exact .inl h
      · exact .inr (h ▸ List.mem_cons_self)
    · exact .inr (List.mem_cons_of_mem _ h)

theorem mem_of_mem_ofList {e : Char × Float} (h : e ∈ (ofList entries).entries) :
  e ∈ entries
  := by
  obtain h | h := mem_of_mem_foldl_set h
  · contradiction
  · apply h

end Variables

/-! ### Snapped values -/

namespace Slider

open Variables

variable (s : Slider)

/-- The values of entries are snapped when they have been set. -/
theorem get?_snapAll (entries : List (Char × Float)) (c : Char) :
  (s.snapAll entries).get? c = ((ofList entries).get? c).map s.snap
  := get?_foldl_set_map s.snap (fun _ => rfl) c

/-- The values of variables are snapped. -/
theorem get?_snapAll_entries (v : Variables) (c : Char) :
  (s.snapAll v.entries).get? c = (v.get? c).map s.snap
  := by
  rw [get?_snapAll, get?_ofList_entries]

/-- What is entered is an entry with its value snapped. -/
theorem exists_mem_of_mem_snapAll {s : Slider} {entries : List (Char × Float)}
    {e : Char × Float} (h : e ∈ (s.snapAll entries).entries) :
  ∃ d ∈ entries, e = (d.1, s.snap d.2)
  := by
  obtain ⟨d, hd, he⟩ := List.mem_map.mp (mem_of_mem_ofList h)
  exact ⟨d, hd, he.symm⟩

end Slider

end SliderCalculator
