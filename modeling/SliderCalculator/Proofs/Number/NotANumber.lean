import SliderCalculator.Operator
import SliderCalculator.Proofs.Number.Unpacking
import SliderCalculator.Proofs.TakeWhile

/-!
# Not a number

A text that starts with a letter and holds no other one denotes no number. The float that
is not a number makes the results of operators none either. The only exceptions are powers:
of one, and with the exponent zero.
-/

namespace SliderCalculator

/-! ### Texts that denote no number -/

namespace Numeral

/-- A letter is no point. -/
theorem readFraction_of_isAlpha {c : Char} (hc : c.isAlpha = true) (t : Text) :
  readFraction (c :: t) = ([], c :: t)
  := by
  unfold readFraction
  split
  · next h =>
    cases h
    contradiction
  · rfl

/-- What starts with a letter is no numeral. -/
theorem read?_of_isAlpha {c : Char} (hc : c.isAlpha = true) (t : Text) :
  read? (c :: t) = none
  := by
  have hd : c.isDigit = false := by
    apply eq_false_of_ne_true
    intro hd
    rw [Text.isAlpha_of_isDigit hd] at hc
    contradiction
  have hs : (c :: t).span Char.isDigit = ([], c :: t) :=
    span_append (s := []) (by simp) (by simpa using hd)
  rw [read?, readSign_of_isAlphanum (Text.isAlphanum_iff.mpr (.inl hc))]
  simp only [hs, readFraction_of_isAlpha hc]
  rfl

end Numeral

namespace Number

/-- Only letters have a small letter. -/
theorem toLower_of_isAlpha {c : Char} (hc : c.isAlpha = false) :
  c.toLower = c
  := by
  unfold Char.toLower
  rw [dif_neg]
  intro h
  have hu : c.isUpper = true := decide_eq_true h
  change (c.isUpper || c.isLower) = false at hc
  rw [hu, Bool.true_or] at hc
  contradiction

/-- A text that starts with a letter and holds no other one denotes no number. -/
theorem read?_of_isAlpha {c : Char} (hc : c.isAlpha = true) {t : Text}
    (ht : ∀ d ∈ t, d.isAlpha = false) :
  read? (c :: t) = none
  := by
  have hl : t.map Char.toLower = t := by
    calc t.map Char.toLower
      _ = t.map id := List.map_congr_left fun d hd => toLower_of_isAlpha (ht d hd)
      _ = t := List.map_id t
  have hw : ofWord? ((c :: t).map Char.toLower) = none := by
    -- every word has a letter after the first one
    have hne : ∀ w : Text, w.tail.any Char.isAlpha = true → c.toLower :: t ≠ w := by
      rintro w hw rfl
      obtain ⟨d, hd, ha⟩ := List.any_eq_true.mp hw
      rw [ht d hd] at ha
      contradiction
    rw [List.map_cons, hl, ofWord?, if_neg, if_neg]
    · apply hne
      decide
    · rintro (h | h)
      · apply hne _ (by decide) h
      · apply hne _ (by decide) h
  have hs := Numeral.readSign_of_isAlphanum (Text.isAlphanum_iff.mpr (.inl hc)) t
  rw [read?, Numeral.read?_of_isAlpha hc]
  simp only [readWord?, hs, hw]
  rfl

/-! ### Arithmetic -/

open Float.Model (UnpackedFloat)
open Float.Model.UnpackedFloat (Sign packComponents)

theorem isNaN_iff {x : Float} :
  x.isNaN = true ↔ x.toModel.unpack = .notANumber
  := by
  change x.toModel.unpack.isNaN = true ↔ _
  cases x.toModel.unpack with
  | notANumber => exact iff_of_true rfl rfl
  | _ => exact iff_of_false Bool.false_ne_true nofun

/-- What is not a number is not finite. -/
theorem isFinite_of_isNaN {x : Float} (h : x.isNaN = true) :
  x.isFinite = false
  := by
  rw [isNaN_iff] at h
  change x.toModel.unpack.isFinite = false
  rw [h]
  rfl

theorem isNaN_nan :
  nan.isNaN = true
  := by
  decide +kernel

/-- Whether an operation gives no number when an operand is none. -/
def Propagates (f : UnpackedFloat → UnpackedFloat → UnpackedFloat) : Prop :=
  ∀ u, f .notANumber u = .notANumber ∧ f u .notANumber = .notANumber

theorem propagates_add :
  Propagates (UnpackedFloat.add .binary64)
  := by
  intro u
  cases u <;> exact ⟨rfl, rfl⟩

theorem propagates_sub :
  Propagates (UnpackedFloat.sub .binary64)
  := by
  intro u
  cases u <;> exact ⟨rfl, rfl⟩

theorem propagates_mul :
  Propagates (UnpackedFloat.mul .binary64)
  := by
  intro u
  cases u <;> exact ⟨rfl, rfl⟩

theorem propagates_div :
  Propagates (UnpackedFloat.div .binary64)
  := by
  intro u
  cases u <;> exact ⟨rfl, rfl⟩

variable {x y : Float}

/-- The result of an operation is not a number when an operand is none. -/
theorem Propagates.isNaN {f : UnpackedFloat → UnpackedFloat → UnpackedFloat} (hf : Propagates f)
    (h : x.isNaN = true ∨ y.isNaN = true) :
  (Float.ofModel (.pack (f x.toModel.unpack y.toModel.unpack))).isNaN = true
  := by
  have hu : f x.toModel.unpack y.toModel.unpack = .notANumber := by
    rw [isNaN_iff, isNaN_iff] at h
    obtain h | h := h
    · rw [h]
      apply (hf _).1
    · rw [h]
      apply (hf _).2
  rw [hu]
  apply isNaN_nan

/-- A power is not a number when its base or its exponent is none, unless the exponent is
zero or the base is one. -/
theorem isNaN_power (h : x.isNaN = true ∨ y.isNaN = true) (hx : (x == 1.0) = false)
    (hy : (y == 0.0) = false) :
  (power x y).isNaN = true
  := by
  have hn : (x.isNaN || y.isNaN) = true := by
    rw [Bool.or_eq_true]
    apply h
  rw [power, hx, hy, hn]
  apply isNaN_nan

/-- A finite float is a number. -/
theorem isNaN_of_isFinite (h : x.isFinite = true) :
  x.isNaN = false
  := by
  apply eq_false_of_ne_true
  intro hn
  rw [isFinite_of_isNaN hn] at h
  contradiction

/-! ### Results that are numbers -/

/-- The sign of a number. -/
def sign? : UnpackedFloat → Option Sign
  | .notANumber => none
  | .infinity s | .zero s | .finite s .. => some s

theorem isNaN_eq_isNone (u : UnpackedFloat) :
  u.isNaN = (sign? u).isNone
  := by
  cases u <;> rfl

/-- A number is packed into its sign and parts that are not those of a float that is none. -/
theorem exists_pack_eq_packComponents {u : UnpackedFloat} {s : Sign} (h : sign? u = some s) :
  ∃ e m, UnpackedFloat.pack .binary64 u = packComponents .binary64 s e m
    ∧ (e = -1#11 → m = 0#52)
  := by
  fun_cases UnpackedFloat.pack .binary64 u with
  | case1 => contradiction
  | case2 s =>
    cases h
    exact ⟨-1#11, 0#52, rfl, fun _ => rfl⟩
  | case3 s =>
    cases h
    exact ⟨0#11, 0#52, rfl, fun _ => rfl⟩
  | case4 s m q hm biased hq =>
    cases h
    exact ⟨-1#11, 0#52, rfl, fun _ => rfl⟩
  | case5 s m q hm bits biased hq hb =>
    cases h
    refine ⟨_, _, rfl, ?_⟩
    intro he
    have hq : ¬ 2 ^ 11 ≤ biased + 1 := hq
    have he := congrArg BitVec.toNat he
    simp only [BitVec.toNat_ofNat, BitVec.reduceNeg] at he
    omega
  | case6 s m q hm bits biased hq hb =>
    cases h
    refine ⟨0#11, _, rfl, ?_⟩
    intro he
    contradiction

/-- Such parts are unpacked to a number with the sign. -/
theorem sign?_unpack_packComponents {s : Sign} {e : BitVec 11} {m : BitVec 52}
    (h : e = -1#11 → m = 0#52) :
  sign? (UnpackedFloat.unpack .binary64 (packComponents .binary64 s e m)) = some s
  := by
  have hu := unpacksTo_packComponents s e m
  generalize UnpackedFloat.unpack .binary64 _ = u at hu ⊢
  cases hu with
  | notANumber he hm => exact absurd (h he) hm
  | _ => rfl

/-- Packing keeps the sign of a number. -/
theorem sign?_ofModel_pack (u : UnpackedFloat) :
  sign? (Float.ofModel (.pack u)).toModel.unpack = sign? u
  := by
  cases hs : sign? u with
  | none =>
    cases u with
    | notANumber =>
      have hn := isNaN_iff.mp isNaN_nan
      rw [nan] at hn
      rw [hn]
      rfl
    | _ => contradiction
  | some s =>
    obtain ⟨e, m, hp, he⟩ := exists_pack_eq_packComponents hs
    change sign? (UnpackedFloat.unpack .binary64 (UnpackedFloat.pack .binary64 u)) = some s
    rw [hp]
    apply sign?_unpack_packComponents he

/-- Packing keeps whether a float is a number. -/
theorem isNaN_ofModel_pack (u : UnpackedFloat) :
  (Float.ofModel (.pack u)).isNaN = u.isNaN
  := by
  change (Float.ofModel (.pack u)).toModel.unpack.isNaN = u.isNaN
  rw [isNaN_eq_isNone, isNaN_eq_isNone, sign?_ofModel_pack]

/-- Rounding to a format keeps the sign. -/
theorem sign?_roundWithAccuracy (s : Sign) (m : Nat) (q : Int) (acc : UnpackedFloat.Accuracy) :
  sign? (UnpackedFloat.roundWithAccuracy .binary64 s m q acc) = some s
  := by
  fun_cases UnpackedFloat.roundWithAccuracy .binary64 s m q acc <;> rfl

/-- Rounding to a format gives a number. -/
theorem isNaN_roundWithAccuracy (s : Sign) (m : Nat) (q : Int) (acc : UnpackedFloat.Accuracy) :
  (UnpackedFloat.roundWithAccuracy .binary64 s m q acc).isNaN = false
  := by
  rw [isNaN_eq_isNone, sign?_roundWithAccuracy]
  rfl

theorem isNaN_normalize (z q : Int) (s : Sign) :
  (UnpackedFloat.normalize .binary64 z q s).isNaN = false
  := by
  rw [UnpackedFloat.normalize]
  split
  · apply isNaN_roundWithAccuracy
  · rfl
  · apply isNaN_roundWithAccuracy

section Unpacked

variable {u v : UnpackedFloat}

/-- The sum of a finite number and a number is a number. -/
theorem isNaN_add (hu : u.isFinite = true) (hv : v.isNaN = false) :
  (UnpackedFloat.add .binary64 u v).isNaN = false
  := by
  cases u with
  | notANumber | infinity => contradiction
  | zero s =>
    cases v with
    | notANumber => contradiction
    | zero t => cases s <;> cases t <;> rfl
    | _ => rfl
  | finite s m q hm =>
    cases v with
    | notANumber => contradiction
    | finite => apply isNaN_normalize
    | _ => rfl

/-- The difference of finite numbers is a number. -/
theorem isNaN_sub (hu : u.isFinite = true) (hv : v.isFinite = true) :
  (UnpackedFloat.sub .binary64 u v).isNaN = false
  := by
  cases u with
  | notANumber | infinity => contradiction
  | zero s =>
    cases v with
    | notANumber | infinity => contradiction
    | zero t => cases s <;> cases t <;> rfl
    | finite => rfl
  | finite s m q hm =>
    cases v with
    | notANumber | infinity => contradiction
    | zero => rfl
    | finite => apply isNaN_normalize

variable {s : Sign} {m : Nat} {q : Int} {hm : 0 < m}

/-- The product of a number and a finite number other than zero is a number. -/
theorem isNaN_mul (hu : u.isNaN = false) :
  (UnpackedFloat.mul .binary64 u (.finite s m q hm)).isNaN = false
  := by
  cases u with
  | notANumber => contradiction
  | finite => apply isNaN_roundWithAccuracy
  | _ => rfl

/-- The quotient of a number by a finite number other than zero is a number. -/
theorem isNaN_div (hu : u.isNaN = false) :
  (UnpackedFloat.div .binary64 u (.finite s m q hm)).isNaN = false
  := by
  cases u with
  | notANumber => contradiction
  | finite => apply isNaN_roundWithAccuracy
  | _ => rfl

end Unpacked

/-- A number is rounded to a number. -/
theorem isNaN_roundHalfAway (h : x.isNaN = false) :
  (roundHalfAway x).isNaN = false
  := by
  rw [roundHalfAway]
  split
  · split
    · apply h
    · rw [isNaN_ofModel_pack]
      apply isNaN_roundWithAccuracy
  · apply h

end Number

open Number in
/-- The result of an operator is not a number when an operand is none, unless it is a power
with exponent zero or base one. -/
theorem Operator.isNaN_apply {o : Operator} {x y z : Float} (hz : o.apply x y = .ok z)
    (h : x.isNaN = true ∨ y.isNaN = true)
    (ho : o = .exponentiation → (x == 1.0) = false ∧ (y == 0.0) = false) :
  z.isNaN = true
  := by
  cases o with
  | addition =>
    cases hz
    apply propagates_add.isNaN h
  | subtraction =>
    cases hz
    apply propagates_sub.isNaN h
  | multiplication =>
    cases hz
    apply propagates_mul.isNaN h
  | division =>
    rw [apply] at hz
    split at hz
    · contradiction
    · cases hz
      apply propagates_div.isNaN h
  | exponentiation =>
    cases hz
    obtain ⟨hx, hy⟩ := ho rfl
    apply isNaN_power h hx hy

end SliderCalculator
