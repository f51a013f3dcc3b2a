import SliderCalculator.Proofs.Formula.Expression
import SliderCalculator.Proofs.Formula.Letters
import SliderCalculator.Proofs.Token.Places

/-!
# How operands are written

The signs of products are put in before letters, so an operand of a formula is a number, written
with digits, or a letter with the digits right after it: `operand_mem_scan_insertProducts_iff`.
-/

namespace SliderCalculator

open Token

namespace Formula

/-! ### Signs of products between operands -/

theorem isAlpha_of_isProduct {a b : Char} (h : isProduct a b = true) :
  b.isAlpha = true
  := (Bool.and_eq_true_iff.mp h).2

/-- Where a text is divided before another character than `*`, what is left of it is divided, too.
The first part ends as it did, or it has lost a sign before the second part. -/
theorem Abridges.exists_append {s₁ s₂ t : Text} (h : Abridges (s₁ ++ s₂) t)
    (hs : ∀ b ∈ s₂.head?, b ≠ '*') :
  ∃ t₁ t₂, t = t₁ ++ t₂ ∧ Abridges s₂ t₂ ∧ (t₁ = [] → s₁ = [])
    ∧ ∀ a ∈ t₁.getLast?, a ∈ s₁.getLast? ∨ ∃ b ∈ s₂.head?, isProduct a b = true
  := by
  generalize hu : s₁ ++ s₂ = u at h
  induction h generalizing s₁ with
  | nil =>
    obtain ⟨rfl, rfl⟩ := List.append_eq_nil_iff.mp hu
    exact ⟨[], [], rfl, .nil, by simp, by simp⟩
  | @keep c s t h ih =>
    cases s₁ with
    | nil =>
      rw [List.nil_append] at hu
      subst hu
      exact ⟨[], c :: t, rfl, .keep c h, by simp, by simp⟩
    | cons d s₁ =>
      injection hu with hd hu
      subst hd
      obtain ⟨t₁, t₂, rfl, h₂, hn, hl⟩ := ih hu
      refine ⟨d :: t₁, t₂, rfl, h₂, by simp, ?_⟩
      cases t₁ with
      | nil =>
        rw [hn rfl]
        exact fun a ha => .inl ha
      | cons e t₁ =>
        intro a ha
        obtain ha | hp := hl a ha
        · left
          rw [List.getLast?_cons, ha]
          rfl
        · exact .inr hp
  | @elide a b hab s t h ih =>
    cases s₁ with
    | nil =>
      rw [List.nil_append] at hu
      subst hu
      exact ⟨[], a :: b :: t, rfl, .elide hab h, by simp, by simp⟩
    | cons d s₁ =>
      injection hu with hd hu
      subst hd
      cases s₁ with
      | nil =>
        have hu : s₂ = '*' :: b :: s := hu
        subst hu
        exact absurd rfl (hs '*' rfl)
      | cons d' s₁ =>
        injection hu with hd hu
        subst hd
        obtain ⟨t₁, t₂, ht, h₂, hn, hl⟩ := ih hu
        refine ⟨d :: t₁, t₂, by rw [ht, List.cons_append], h₂, by simp, ?_⟩
        cases t₁ with
        | nil =>
          -- the sign that is left out stands at the end of the first part
          rintro _ ⟨⟩
          right
          refine ⟨b, ?_, hab⟩
          rw [h₂.head?_eq, ← List.nil_append t₂, ← ht]
          rfl
        | cons e t₁ =>
          intro a ha
          obtain ha | hp := hl a ha
          · left
            rw [List.getLast?_cons, List.getLast?_cons, ha]
            rfl
          · exact .inr hp

/-- What is left of a text that starts without `*` starts in the same way. After that it goes on as
before, or with a letter. -/
theorem Abridges.exists_run {s r t : Text} (h : Abridges (s ++ r) t) (hs : ∀ c ∈ s, c ≠ '*') :
  ∃ r', t = s ++ r' ∧ ∀ b ∈ r'.head?, b ∈ r.head? ∨ b.isAlpha = true
  := by
  induction s generalizing t with
  | nil =>
    refine ⟨t, rfl, ?_⟩
    rw [← h.head?_eq]
    exact fun b hb => .inl hb
  | cons c s ih =>
    have hs' : ∀ d ∈ s, d ≠ '*' := fun d hd => hs d (List.mem_cons_of_mem _ hd)
    generalize hu : c :: s ++ r = u at h
    cases h with
    | nil => contradiction
    | @keep c' u t h =>
      injection hu with hc hu
      subst hc hu
      obtain ⟨r', rfl, hr⟩ := ih h hs'
      exact ⟨r', rfl, hr⟩
    | @elide a b hab u t h =>
      injection hu with hc hu
      subst hc
      cases s with
      | nil =>
        refine ⟨b :: t, rfl, ?_⟩
        rintro _ ⟨⟩
        exact .inr (isAlpha_of_isProduct hab)
      | cons d s =>
        injection hu with hd hu
        exact absurd hd (hs' d List.mem_cons_self)

/-- Two texts one after the other are spelled one after the other, with a sign in between when a
product ends the one and starts the other. -/
theorem exists_spellProducts_append (s t : Text) :
  ∃ sign, spellProducts (s ++ t) = spellProducts s ++ sign ++ spellProducts t
    ∧ (sign = ['*'] ∨ sign = [] ∧ ∀ a ∈ s.getLast?, ∀ b ∈ t.head?, isProduct a b = false)
  := by
  fun_induction spellProducts s with
  | case1 a b s hab ih =>
    obtain ⟨sign, hs, hp⟩ := ih
    refine ⟨sign, ?_, by simpa [List.getLast?_cons] using hp⟩
    rw [List.cons_append] at hs ⊢
    rw [List.cons_append, spellProducts, if_pos hab, hs]
    rfl
  | case2 a b s hab ih =>
    obtain ⟨sign, hs, hp⟩ := ih
    refine ⟨sign, ?_, by simpa [List.getLast?_cons] using hp⟩
    rw [List.cons_append] at hs ⊢
    rw [List.cons_append, spellProducts, if_neg hab, hs]
    rfl
  | case3 s hs =>
    rcases s with _ | ⟨a, _ | ⟨b, s⟩⟩
    · exact ⟨[], rfl, .inr ⟨rfl, by simp⟩⟩
    · cases t with
      | nil => exact ⟨[], rfl, .inr ⟨rfl, by simp⟩⟩
      | cons b t =>
        rw [List.cons_append, List.nil_append, spellProducts]
        split
        case isTrue => exact ⟨['*'], rfl, .inl rfl⟩
        case isFalse h => exact ⟨[], rfl, .inr ⟨rfl, by simpa using h⟩⟩
    · apply (hs a b s rfl).elim

/-! ### Numbers and letters -/

/-- Whether digits stand in a text as a number: no digit goes on with them, and no letter stands
right before them. -/
def IsLiteral (t digits : Text) : Prop :=
  ∃ before after, t = before ++ digits ++ after
    ∧ Text.IsLongestRun Char.isDigit before digits after
    ∧ ∀ c ∈ before.getLast?, c.isAlpha = false

/-- Whether a letter stands in a text with digits right after it, maybe none, and no more digits
than that. -/
def IsFactor (t : Text) (name : Char) (digits : Text) : Prop :=
  ∃ before after, t = before ++ name :: digits ++ after
    ∧ name.isAlpha = true ∧ (∀ c ∈ digits, c.isDigit = true) ∧ ∀ c ∈ after.head?, c.isDigit = false

theorem isProduct_of_isAlphanum {a : Char} (ha : a.isAlphanum = true) (b : Char) :
  isProduct a b = b.isAlpha
  := by
  rw [isProduct]
  obtain ha | ha := Text.isAlphanum_iff.mp ha
  · rw [ha, Bool.or_true, Bool.true_and]
  · rw [Text.isDecimalDigit_of_isDigit ha, Bool.true_or, Bool.true_and]

/-- The characters of operands that may stand in a formula are letters and digits. -/
theorem isOperandChar_of_isMeaningful {c : Char} (h : isMeaningful c = true) :
  isOperandChar c = c.isAlphanum
  := by
  rw [isOperandChar, Bool.or_eq_left_iff_imp, beq_iff_eq]
  rintro rfl
  contradiction

/-- Where products are spelled out, all characters of an operand after the first one are
digits. -/
theorem isDigit_of_isChain {c : Char} {t : Text}
    (h : (c :: t).IsChain fun a b => isProduct a b = false)
    (hc : ∀ d ∈ c :: t, d.isAlphanum = true) :
  ∀ d ∈ t, d.isDigit = true
  := by
  induction t generalizing c with
  | nil => simp
  | cons d t ih =>
    obtain ⟨hcd, h⟩ := List.isChain_cons_cons.mp h
    intro e he
    obtain rfl | he := List.mem_cons.mp he
    · rw [isProduct_of_isAlphanum (hc c List.mem_cons_self)] at hcd
      have he := Text.isAlphanum_iff.mp (hc e (by simp))
      rw [hcd] at he
      apply he.resolve_left Bool.false_ne_true
    · apply ih h (fun e he => hc e (List.mem_cons_of_mem _ he)) e he

/-- Digits after a character make no products. -/
theorem isChain_of_isDigit {t : Text} (h : ∀ d ∈ t, d.isDigit = true) (c : Char) :
  (c :: t).IsChain fun a b => isProduct a b = false
  := by
  induction t generalizing c with
  | nil => exact .singleton c
  | cons d t ih =>
    apply List.IsChain.cons_cons _ (ih (fun e he => h e (List.mem_cons_of_mem _ he)) d)
    rw [isProduct, Text.isAlpha_of_isDigit (h d List.mem_cons_self), Bool.and_false]

variable {t : Text} (hm : ∀ c ∈ t, isMeaningful c = true)

include hm in
/-- The characters of operands are letters and digits also when products have been spelled out. -/
theorem isAlphanum_of_mem_spellProducts {c : Char} (h : c ∈ spellProducts t)
    (hc : isOperandChar c = true) :
  c.isAlphanum = true
  := by
  obtain ht | rfl := mem_spellProducts h
  · rw [← isOperandChar_of_isMeaningful (hm c ht)]
    apply hc
  · contradiction

include hm in
/-- An operand that is read when products have been spelled out stands in the text, with digits
after its first character. -/
theorem exists_append_of_isLongestRun {before content after : Text}
    (ht : spellProducts t = before ++ content ++ after)
    (hr : Text.IsLongestRun isOperandChar before content after) :
  ∃ before' c digits after', t = before' ++ c :: digits ++ after' ∧ content = c :: digits
    ∧ c.isAlphanum = true ∧ (∀ d ∈ digits, d.isDigit = true)
    ∧ (∀ a ∈ before'.getLast?, c.isDigit = true → a.isAlphanum = false)
    ∧ ∀ b ∈ after'.head?, b.isDigit = false
  := by
  have ha : ∀ d ∈ content, d.isAlphanum = true := by
    intro d hd
    apply isAlphanum_of_mem_spellProducts hm _ (hr.all d hd)
    simp [ht, hd]
  have hstar : ∀ d ∈ content, d ≠ '*' := by
    rintro _ hd rfl
    have := ha _ hd
    contradiction
  have hab := abridges_spellProducts t
  have hchain := isChain_insertProducts t
  rw [insertProducts_eq, ht, List.append_assoc] at hchain
  rw [ht, List.append_assoc] at hab
  obtain ⟨c, digits, rfl⟩ := List.exists_cons_of_ne_nil hr.ne_nil
  obtain ⟨before', t₂, rfl, h₂, -, hl⟩ := hab.exists_append fun b hb => by
    cases hb
    apply hstar c List.mem_cons_self
  obtain ⟨after', rfl, hr'⟩ := h₂.exists_run hstar
  have not_alphanum {a : Char} (h : isOperandChar a = false) : a.isAlphanum = false :=
    (Bool.or_eq_false_iff.mp h).1
  refine ⟨before', c, digits, after', by simp, rfl, ha c List.mem_cons_self, ?_, ?_, ?_⟩
  · apply isDigit_of_isChain _ ha
    apply List.IsChain.infix hchain
    exact ⟨before, after, by simp⟩
  · intro a hb hc
    obtain hb | ⟨b, hb, hp⟩ := hl a hb
    · apply not_alphanum (hr.before a hb)
    · cases hb
      have hca := isAlpha_of_isProduct hp
      rw [Text.isAlpha_of_isDigit hc] at hca
      exact absurd hca Bool.false_ne_true
  · intro b hb
    apply eq_false_of_ne_true
    intro hd
    obtain hb | hba := hr' b hb
    · have hn := not_alphanum (hr.after b hb)
      rw [Text.isAlphanum_iff.mpr (.inr hd)] at hn
      exact absurd hn.symm Bool.false_ne_true
    · rw [Text.isAlpha_of_isDigit hd] at hba
      exact absurd hba Bool.false_ne_true

/-- What is left of a text ends as the text does. -/
theorem Abridges.getLast?_eq {s t : Text} (h : Abridges s t) :
  s.getLast? = t.getLast?
  := by
  induction h with
  | nil => rfl
  | keep c h ih => rw [List.getLast?_cons, List.getLast?_cons, ih]
  | elide hab h ih => simpa [List.getLast?_cons] using ih

theorem isAlphanum_eq_false_iff {c : Char} :
  c.isAlphanum = false ↔ c.isDigit = false ∧ c.isAlpha = false
  := by
  rw [← Bool.not_eq_true, Text.isAlphanum_iff, not_or, Bool.not_eq_true, Bool.not_eq_true, and_comm]

include hm in
/-- An operand does not go on from a text into a letter, before which the product is spelled out,
nor into a number whose first digit stands there. -/
theorem isOperandChar_of_mem_getLast? {sign : Text} {c : Char} (hc : c.isAlphanum = true)
    (hb : ∀ a ∈ t.getLast?, c.isDigit = true → a.isAlphanum = false)
    (hs : sign = ['*'] ∨ sign = [] ∧ ∀ a ∈ t.getLast?, isProduct a c = false) :
  ∀ a ∈ (spellProducts t ++ sign).getLast?, isOperandChar a = false
  := by
  intro a ha
  obtain rfl | ⟨rfl, hn⟩ := hs
  · rw [List.getLast?_concat] at ha
    cases ha
    rfl
  · rw [List.append_nil, (abridges_spellProducts t).getLast?_eq] at ha
    rw [isOperandChar_of_isMeaningful (hm a (List.mem_of_getLast? ha))]
    obtain hca | hcd := Text.isAlphanum_iff.mp hc
    · apply eq_false_of_ne_true
      intro haa
      have hp := hn a ha
      rw [isProduct_of_isAlphanum haa, hca] at hp
      exact absurd hp.symm Bool.false_ne_true
    · apply hb a ha hcd

include hm in
/-- An operand does not go on from a letter or digit into a text that starts with no digit. -/
theorem isOperandChar_of_mem_head? {sign : Text} {c : Char} (hc : c.isAlphanum = true)
    (ha : ∀ b ∈ t.head?, b.isDigit = false)
    (hs : sign = ['*'] ∨ sign = [] ∧ ∀ b ∈ t.head?, isProduct c b = false) :
  ∀ b ∈ (sign ++ spellProducts t).head?, isOperandChar b = false
  := by
  intro b hb
  obtain rfl | ⟨rfl, hn⟩ := hs
  · cases hb
    rfl
  · rw [List.nil_append, (abridges_spellProducts t).head?_eq] at hb
    have hp := hn b hb
    rw [isProduct_of_isAlphanum hc] at hp
    rw [isOperandChar_of_isMeaningful (hm b (List.mem_of_mem_head? hb)), isAlphanum_eq_false_iff]
    exact ⟨ha b hb, hp⟩

include hm in
/-- What stands in a text with digits after its first character is read as an operand when products
are spelled out. -/
theorem operand_mem_scan_of_append {before digits after : Text} {c : Char}
    (ht : t = before ++ c :: digits ++ after) (hc : c.isAlphanum = true)
    (hd : ∀ d ∈ digits, d.isDigit = true)
    (hb : ∀ a ∈ before.getLast?, c.isDigit = true → a.isAlphanum = false)
    (ha : ∀ b ∈ after.head?, b.isDigit = false) :
  operand (c :: digits) ∈ scan (spellProducts t)
  := by
  obtain ⟨sign₁, hs₁, hp₁⟩ := exists_spellProducts_append before (c :: digits ++ after)
  obtain ⟨sign₂, hs₂, hp₂⟩ := exists_spellProducts_append (c :: digits) after
  rw [spellProducts_eq_self (isChain_of_isDigit hd c)] at hs₂
  have hr : ∀ d ∈ c :: digits, d.isAlphanum = true := by
    rintro d (_ | ⟨_, hd'⟩)
    · apply hc
    · exact Text.isAlphanum_iff.mpr (.inr (hd d hd'))
  rw [operand_mem_scan_iff]
  refine ⟨spellProducts before ++ sign₁, sign₂ ++ spellProducts after, ?_, List.cons_ne_nil _ _,
    ?_, ?_, ?_⟩
  · rw [ht, List.append_assoc, hs₁, hs₂]
    simp
  · exact fun d hd => isOperandChar_of_isAlphanum (hr d hd)
  · have hm₁ : ∀ a ∈ before, isMeaningful a = true := fun a h => hm a (by simp [ht, h])
    apply isOperandChar_of_mem_getLast? hm₁ hc hb
    exact hp₁.imp_right fun h => ⟨h.1, fun a ha => h.2 a ha c rfl⟩
  · have hm₂ : ∀ b ∈ after, isMeaningful b = true := fun b h => hm b (by simp [ht, h])
    have hl := List.getLast?_eq_some_getLast (List.cons_ne_nil c digits)
    apply isOperandChar_of_mem_head? hm₂ (hr _ (List.getLast_mem (List.cons_ne_nil c digits))) ha
    exact hp₂.imp_right fun h => ⟨h.1, h.2 _ hl⟩

include hm in
/-- The operands of a text whose products are spelled out are the numbers in it, and the letters
with the digits after them. -/
theorem operand_mem_scan_spellProducts_iff {content : Text} :
  operand content ∈ scan (spellProducts t)
    ↔ IsLiteral t content ∨ ∃ name digits, content = name :: digits ∧ IsFactor t name digits
  := by
  constructor
  · intro h
    obtain ⟨_, _, hs, hr⟩ := operand_mem_scan_iff.mp h
    obtain ⟨before, c, digits, after, ht, rfl, hc, hd, hb, ha⟩ :=
      exists_append_of_isLongestRun hm hs hr
    obtain hca | hcd := Text.isAlphanum_iff.mp hc
    · right
      exact ⟨c, digits, rfl, before, after, ht, hca, hd, ha⟩
    · left
      have hb' : ∀ a ∈ before.getLast?, a.isDigit = false ∧ a.isAlpha = false :=
        fun a h => isAlphanum_eq_false_iff.mp (hb a h hcd)
      refine ⟨before, after, ht, ⟨List.cons_ne_nil _ _, ?_, fun a h => (hb' a h).1, ha⟩,
        fun a h => (hb' a h).2⟩
      rintro d (_ | ⟨_, h⟩)
      · apply hcd
      · apply hd d h
  · rintro (⟨before, after, ht, hr, hb⟩ | ⟨c, digits, rfl, before, after, ht, hc, hd, ha⟩)
    · obtain ⟨c, digits, rfl⟩ := List.exists_cons_of_ne_nil hr.ne_nil
      have hd := fun d h => hr.all d (List.mem_cons_of_mem _ h)
      apply operand_mem_scan_of_append hm ht _ hd _ hr.after
      · exact Text.isAlphanum_iff.mpr (.inr (hr.all c List.mem_cons_self))
      · intro a h _
        exact isAlphanum_eq_false_iff.mpr ⟨hr.before a h, hb a h⟩
    · apply operand_mem_scan_of_append hm ht _ hd _ ha
      · exact Text.isAlphanum_iff.mpr (.inl hc)
      · intro a _ hcd
        rw [Text.isAlpha_of_isDigit hcd] at hc
        exact absurd hc Bool.false_ne_true

/-- The operands of a formula. -/
theorem operand_mem_scan_insertProducts_iff {formula content : Text} :
  operand content ∈ scan (insertProducts (meaningful formula))
    ↔ IsLiteral (meaningful formula) content
      ∨ ∃ c digits, content = c :: digits ∧ IsFactor (meaningful formula) c digits
  := by
  rw [insertProducts_eq]
  apply operand_mem_scan_spellProducts_iff
  exact fun c hc => (List.mem_filter.mp hc).2

/-- The tokens of a formula are numbers, letters with digits after them, and no operands. -/
theorem cases_of_mem_scan_insertProducts {formula : Text} {u : Token}
    (hu : u ∈ scan (insertProducts (meaningful formula))) :
  u.isOperand = false
    ∨ (∃ digits, u = operand digits ∧ IsLiteral (meaningful formula) digits)
    ∨ ∃ c digits, u = operand (c :: digits) ∧ IsFactor (meaningful formula) c digits
  := by
  cases isProper_of_mem_scan u hu with
  | operand =>
    right
    obtain h | ⟨c, digits, rfl, h⟩ := operand_mem_scan_insertProducts_iff.mp hu
    · exact .inl ⟨_, rfl, h⟩
    · exact .inr ⟨c, digits, rfl, h⟩
  | operator | left | right => exact .inl rfl

/-- A letter that stands in a formula as a factor is one of its letters. -/
theorem IsFactor.mem_letters {formula : Text} {c : Char} {digits : Text}
    (h : IsFactor (meaningful formula) c digits) :
  c ∈ letters formula
  := by
  obtain ⟨before, after, ht, ha, -, -⟩ := h
  have hm : c ∈ meaningful formula := by simp [ht]
  exact Formula.mem_letters.mpr ⟨List.mem_of_mem_filter hm, ha⟩

/-- Each letter of a formula stands in it as a factor. -/
theorem exists_isFactor {formula : Text} {c : Char} (h : c ∈ letters formula) :
  ∃ digits, IsFactor (meaningful formula) c digits
  := by
  obtain ⟨hc, ha⟩ := mem_letters.mp h
  have hm : c ∈ meaningful formula := by
    apply List.mem_filter.mpr ⟨hc, _⟩
    simp [isMeaningful, Text.isAlphanum_iff, ha]
  obtain ⟨before, after, ht⟩ := List.append_of_mem hm
  refine ⟨after.takeWhile Char.isDigit, before, after.dropWhile Char.isDigit, ?_, ha, ?_, ?_⟩
  · rw [List.append_assoc, List.cons_append, List.takeWhile_append_dropWhile, ht]
  · exact fun d hd => List.mem_takeWhile_imp hd
  · apply head?_dropWhile

/-- The characters of a formula that may be typed in are allowed. -/
theorem isAllowed_of_check {formula : Text} (h : check formula = .ok ()) :
  ∀ c ∈ formula, isAllowed c = true
  := by
  rw [check] at h
  split at h
  case h_1 => contradiction
  case h_2 hf => simpa using List.find?_eq_none.mp hf

/-- A formula that may be typed in loses its blanks only. -/
theorem meaningful_eq_withoutBlanks {formula : Text} (h : check formula = .ok ()) :
  meaningful formula = formula.withoutBlanks
  := by
  apply List.filter_congr
  intro c hc
  have ha := isAllowed_of_check h c hc
  cases hb : Text.isBlank c with
  | false => simpa [isAllowed, isMeaningful, hb] using ha
  | true =>
    apply eq_false_of_ne_true
    intro hm
    rw [isBlank_of_isSolid (isSolid_of_isMeaningful hm)] at hb
    contradiction

end Formula

end SliderCalculator
