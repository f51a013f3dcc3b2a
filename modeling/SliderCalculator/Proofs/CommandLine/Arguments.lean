import SliderCalculator.CommandLine.Arguments

/-!
# What arguments ask for

The words of the command line ask for one thing after the other, and what they ask for does not
depend on what has been read before: `exists_askFor`. That the log is verbose changes nothing else,
so it can be asked for first: `readArguments_verbose`.
-/

namespace SliderCalculator.CommandLine

/-! ### Verbosity -/

/-- Whether a word asks for a verbose log when it is read as options: by its long name, or by a
letter after a single `-`. -/
def IsVerbose (word : Text) : Prop :=
  word = "--verbose".toList ∨ word.head? = some '-' ∧ word[1]? ≠ some '-' ∧ 'v' ∈ word

instance : DecidablePred IsVerbose :=
  fun _ => inferInstanceAs (Decidable (_ ∨ _))

/-- Whether words ask for a verbose log. After the word `--` there are no options. -/
def AsksForVerbosity (words : List Text) : Prop :=
  ∃ word ∈ words.takeWhile (· ≠ "--".toList), IsVerbose word

instance : DecidablePred AsksForVerbosity :=
  fun _ => inferInstanceAs (Decidable (∃ _ ∈ _, _))

variable {word : Text} {words : List Text}

theorem asksForVerbosity_cons (hw : word ≠ "--".toList) :
  AsksForVerbosity (word :: words) ↔ IsVerbose word ∨ AsksForVerbosity words
  := by
  rw [AsksForVerbosity, List.takeWhile_cons_of_pos (by simpa using hw)]
  simp only [List.mem_cons, or_and_right, exists_or, exists_eq_left, AsksForVerbosity]

/-- The long option that has the letter `v`. -/
theorem eq_verbose_of_letterOfName? {name : Text} (h : letterOfName? name = some 'v') :
  name = "verbose".toList
  := by
  rw [letterOfName?] at h
  split at h
  case isTrue hn => apply hn
  case isFalse =>
    split at h
    · cases h
    · split at h <;> cases h

/-! ### Items -/

/-- What a part of the arguments asks for. -/
inductive Item where
  | formula (word : Text)
  | value (o : ValueOption) (text : Text)
  | letter (c : Char)
  /-- The part is wrong. -/
  | fault

/-- Takes what a part of the arguments asks for. -/
def Item.addTo (d : Draft) : Item → Except Halt Draft
  | formula word => d.addFormula word
  | value o text => d.addValue text o
  | letter c => d.addLetter c
  | fault => .error .fault

/-- Whether words ask for items: reading the words is taking the items one after the other, whatever
has been read before. -/
structure AskFor (words : List Text) (items : List Item) : Prop where
  readWords_eq : ∀ d, readWords d words = items.foldlM Item.addTo d
  asksForVerbosity : .letter 'v' ∈ items → AsksForVerbosity words

namespace AskFor

variable {rest : List Text} {items : List Item}

/-- Words that are wrong whatever has been read before. -/
theorem fault (h : ∀ d, readWords d words = .error .fault) :
  AskFor words [.fault]
  := by
  constructor
  · intro d
    rw [h]
    rfl
  · simp

/-- The items of what is read first come before those of the rest. -/
theorem append (first : List Item) (h : AskFor rest items)
    (hr : ∀ d, readWords d words = first.foldlM Item.addTo d >>= (readWords · rest))
    (hf : .letter 'v' ∈ first → AsksForVerbosity words)
    (hv : AsksForVerbosity rest → AsksForVerbosity words) :
  AskFor words (first ++ items)
  := by
  constructor
  · intro d
    rw [hr, List.foldlM_append]
    congr 1
    funext d
    apply h.readWords_eq
  · rw [List.mem_append]
    rintro (hm | hm)
    · apply hf hm
    · apply hv (h.asksForVerbosity hm)

/-- The items of a word that is read by itself. -/
theorem cons (first : List Item) (h : AskFor words items) (hw : word ≠ "--".toList)
    (hr : ∀ d, readWords d (word :: words) = first.foldlM Item.addTo d >>= (readWords · words))
    (hf : .letter 'v' ∈ first → IsVerbose word) :
  AskFor (word :: words) (first ++ items)
  := by
  apply h.append first hr
  · exact fun hm => (asksForVerbosity_cons hw).mpr (.inl (hf hm))
  · exact fun hv => (asksForVerbosity_cons hw).mpr (.inr hv)

/-- The item of a word, or of a word with its value, that is read by itself. -/
theorem item (i : Item) (h : AskFor words items) (hw : word ≠ "--".toList)
    (hr : ∀ d, readWords d (word :: words) = i.addTo d >>= (readWords · words))
    (hv : i = .letter 'v' → IsVerbose word) :
  AskFor (word :: words) (i :: items)
  := by
  apply h.cons [i] hw
  · simpa using hr
  · rw [List.mem_singleton]
    exact fun he => hv he.symm

end AskFor

/-- A word that is no option does not end the options. -/
theorem ne_of_isOptionWord {value : Text} (h : ¬ isOptionWord value = true) :
  value ≠ "--".toList
  := by
  rintro rfl
  exact h rfl

/-- Words ask for items. -/
theorem exists_askFor (words : List Text) :
  ∃ items, AskFor words items
  := by
  generalize Draft.empty = d
  fun_induction readWords d words with
  | case1 => exact ⟨[], fun _ => rfl, by simp⟩
  | case2 d words =>
    -- the word `--`
    refine ⟨words.map .formula, ?_, by simp⟩
    intro d
    rw [readWords, List.foldlM_map]
    rfl
  | case3 d long hl name o c value words hv ho ih =>
    -- a long option with a value after an equals sign
    obtain ⟨items, hi⟩ := ih d
    refine ⟨_, hi.item (.value o value) (by simpa using hl) (fun d => ?_) nofun⟩
    rw [readWords.eq_3 _ _ _ _ _ hl ho _ hv]
    rfl
  | case4 d long hl name o value words hv ho hw =>
    refine ⟨_, AskFor.fault fun d => ?_⟩
    rw [readWords.eq_4 _ _ _ _ _ hl ho hv, if_pos hw]
  | case5 d long hl name o value words hv ho hw ih =>
    -- a long option whose value is the next word, which cannot be `--`
    obtain ⟨items, hi⟩ := ih d
    refine ⟨_, hi.append [.value o value] (fun d => ?_) (by simp) ?_⟩
    · simp only [readWords.eq_4 _ _ _ _ _ hl ho hv, if_neg hw, List.foldlM_cons, List.foldlM_nil,
        bind_pure]
      rfl
    · rw [asksForVerbosity_cons (by simpa using hl), asksForVerbosity_cons (ne_of_isOptionWord hw)]
      exact fun h => .inr (.inr h)
  | case6 d long hl name o hv ho =>
    exact ⟨_, AskFor.fault fun d => readWords.eq_5 d long hl o ho hv⟩
  | case7 d long hl name words hv ho letter hn ih =>
    -- a long option without a value
    obtain ⟨items, hi⟩ := ih d
    refine ⟨_, hi.item (.letter letter) (by simpa using hl) (fun d => ?_) ?_⟩
    · simp only [readWords, hv, ho, hn, name]
      rfl
    · rintro ⟨⟩
      have hlong : long = "verbose".toList := by
        rw [← eq_verbose_of_letterOfName? hn, ← List.append_nil name, ← hv,
          List.takeWhile_append_dropWhile]
      left
      rw [hlong]
      rfl
  | case8 d long hl name words hv ho hn =>
    refine ⟨_, AskFor.fault fun d => ?_⟩
    simp only [readWords, hv, ho, hn, name]
  | case9 d words long hl name c t hv ho =>
    -- a value for a long option that has none
    refine ⟨_, AskFor.fault fun d => ?_⟩
    obtain ⟨e, long, rfl⟩ := List.exists_cons_of_ne_nil hl
    rw [readWords.eq_def]
    simp only [name] at ho
    simp only [ho, hv]
  | case10 d words letter letters h h' ih =>
    -- letters after a single `-`
    obtain ⟨items, hi⟩ := ih d
    refine ⟨_, hi.cons ((letter :: letters).map .letter) (by simpa using h) (fun d => ?_) ?_⟩
    · rw [List.foldlM_map]
      simp only [readWords]
      rfl
    · rw [List.mem_map]
      rintro ⟨_, hm, ⟨⟩⟩
      refine .inr ⟨rfl, ?_, List.mem_cons_of_mem _ hm⟩
      rintro ⟨⟩
      apply h' rfl
  | case11 d word words h h' h'' ih =>
    obtain ⟨items, hi⟩ := ih d
    refine ⟨_, hi.item (.formula word) h (fun d => ?_) nofun⟩
    simp only [readWords]
    rfl

/-! ### A verbose log -/

/-- What words give, with the log as verbose as is said. -/
def Draft.withVerbose (d : Draft) (verbose : Bool) : Draft :=
  { d with verbose }

/-- Options with the log as verbose as is said. -/
def Options.withVerbose (o : Options) (verbose : Bool) : Options :=
  { o with verbose }

/-- What an item is taken for does not depend on the log, unless it asks for a verbose one. -/
theorem Item.addTo_withVerbose {item : Item} (hi : item ≠ .letter 'v') (d : Draft)
    (verbose : Bool) :
  item.addTo (d.withVerbose verbose) = (item.addTo d).map (·.withVerbose verbose)
  := by
  cases item with
  | formula word =>
    rw [addTo, addTo, Draft.addFormula, Draft.addFormula, apply_ite (Except.map _)]
    rfl
  | value o text =>
    cases o with
    | set =>
      simp only [addTo, Draft.addValue]
      split <;> rfl
    | minimum | maximum | step =>
      simp only [addTo, Draft.addValue, Draft.withVerbose]
      generalize Draft.readNumber _ text = r
      cases r <;> rfl
  | letter c =>
    simp only [addTo, Draft.addLetter]
    split
    · contradiction
    all_goals rfl
  | fault => rfl

theorem foldlM_addTo_withVerbose {items : List Item} (hi : .letter 'v' ∉ items) (d : Draft)
    (verbose : Bool) :
  items.foldlM Item.addTo (d.withVerbose verbose)
    = (items.foldlM Item.addTo d).map (·.withVerbose verbose)
  := by
  induction items generalizing d with
  | nil => rfl
  | cons item items ih =>
    rw [List.mem_cons, not_or] at hi
    rw [List.foldlM_cons, List.foldlM_cons, Item.addTo_withVerbose (Ne.symm hi.1)]
    cases item.addTo d with
    | error => rfl
    | ok d => apply ih hi.2

/-- Words that do not ask for a verbose log give the same in either case. -/
theorem readWords_withVerbose (h : ¬ AsksForVerbosity words) (d : Draft) (verbose : Bool) :
  readWords (d.withVerbose verbose) words = (readWords d words).map (·.withVerbose verbose)
  := by
  obtain ⟨items, hi⟩ := exists_askFor words
  rw [hi.readWords_eq, hi.readWords_eq, foldlM_addTo_withVerbose (mt hi.asksForVerbosity h)]

/-- Arguments that do not ask for a verbose log give options without one, and a letter before them
that asks for it changes nothing else. -/
theorem readArguments_verbose (h : ¬ AsksForVerbosity words) :
  readArguments words = (readArguments words).map (·.withVerbose false)
    ∧ readArguments ("-v".toList :: words) = (readArguments words).map (·.withVerbose true)
  := by
  have hr (verbose : Bool) :
      (readWords (Draft.empty.withVerbose verbose) words).map Draft.options
        = (readArguments words).map (·.withVerbose verbose) := by
    rw [readWords_withVerbose h, readArguments]
    cases readWords Draft.empty words <;> rfl
  exact ⟨hr false, hr true⟩

end SliderCalculator.CommandLine
