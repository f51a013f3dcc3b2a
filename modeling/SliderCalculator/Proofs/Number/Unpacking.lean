import Mathlib.Algebra.Group.Nat.Defs
import Mathlib.Tactic.Common
import SliderCalculator.Text.Ascii

/-!
# Unpacked floats

A float is packed into 64 bits and unpacked into a sign, a mantissa and an exponent. The bits of
the exponent and of the mantissa tell what it is unpacked to: `UnpacksTo`. The unpacked form of a
float is canonical: the mantissa has all of its 53 bits, unless the exponent is the least one.
Packing it again gives the float back.
-/

namespace SliderCalculator.Number

open Float.Model (Format UnpackedFloat)
open Float.Model.UnpackedFloat (Sign unpackSign unpackExponent unpackMantissa packComponents)

/-- Whether a mantissa and an exponent are those that a positive float is unpacked into. -/
structure IsCanonical (m : Nat) (q : Int) : Prop where
  pos : 0 < m
  lt : m < 2 ^ 53
  le_exponent : -1074 ≤ q
  exponent_le : q ≤ 971
  eq_or_le : q = -1074 ∨ 2 ^ 52 ≤ m

/-! ### The parts of a packed float -/

section Parts

variable (b : BitVec Format.binary64.numBits)

theorem exponentBias_eq :
  (Format.binary64.exponentBias : Int) = 1023
  := rfl

/-- A mantissa with its leading bit. -/
theorem toNat_one_append (v : BitVec 52) :
  (1#1 ++ v).toNat = 2 ^ 52 + v.toNat
  := by
  have hv := v.isLt
  rw [BitVec.toNat_append, ← Nat.shiftLeft_add_eq_or_of_lt hv]
  simp [Nat.shiftLeft_eq]

/-- The sign bit comes before the exponent and the mantissa. -/
theorem unpackSign_eq :
  unpackSign b = b.extractLsb' 63 1
  := rfl

/-- The parts put together again. -/
theorem packComponents_unpack :
  packComponents .binary64 (.ofBitVec (unpackSign b)) (unpackExponent b) (unpackMantissa b) = b
  := by
  have hs : (Sign.ofBitVec (unpackSign b)).toBitVec = unpackSign b := by
    have h : ∀ v : BitVec 1, (Sign.ofBitVec v).toBitVec = v := by decide
    apply h
  rw [packComponents, hs]
  simp only [unpackSign_eq, unpackExponent, unpackMantissa, BitVec.extractLsb]
  apply BitVec.eq_of_getLsbD_eq
  intro i hi
  simp only [BitVec.getLsbD_append, BitVec.getLsbD_cast, BitVec.getLsbD_extractLsb']
  grind

/-- The sign bit that is put together with the other parts. -/
theorem unpackSign_packComponents (s : Sign) (e : BitVec 11) (m : BitVec 52) :
  unpackSign (packComponents .binary64 s e m) = s.toBitVec
  := by
  apply BitVec.eq_of_getLsbD_eq
  intro i hi
  obtain rfl : i = 0 := by omega
  simp only [unpackSign_eq, packComponents, BitVec.getLsbD_extractLsb', BitVec.getLsbD_append]
  rfl

theorem unpackMantissa_lt :
  (unpackMantissa b).toNat < 2 ^ 52
  := (unpackMantissa b).isLt

theorem unpackExponent_lt :
  (unpackExponent b).toNat < 2 ^ 11
  := (unpackExponent b).isLt

/-- What a sign, the bits of an exponent and those of a mantissa are unpacked to. -/
inductive UnpacksTo (s : Sign) (e : BitVec 11) (f : BitVec 52) : UnpackedFloat → Prop where
  /-- The last exponent, and no mantissa. -/
  | infinity (he : e = -1#11) (hf : f = 0#52) : UnpacksTo s e f (.infinity s)
  /-- The last exponent, and a mantissa. -/
  | notANumber (he : e = -1#11) (hf : f ≠ 0#52) : UnpacksTo s e f .notANumber
  /-- The first exponent, and no mantissa. -/
  | zero (he : e = 0#11) (hf : f = 0#52) : UnpacksTo s e f (.zero s)
  /-- The first exponent, and a mantissa that lacks bits. -/
  | subnormal (he : e = 0#11) (hm : 0 < f.toNat) :
    UnpacksTo s e f (.finite s f.toNat (-1074) hm)
  /-- An exponent in between, and a mantissa that has one bit more than are stored. -/
  | normal {m : Nat} {q : Int} (hlast : e.toNat ≠ 2047) (hfirst : e.toNat ≠ 0) (hm : 0 < m)
    (hf : m = 2 ^ 52 + f.toNat) (hq : q = e.toNat - 1075) :
    UnpacksTo s e f (.finite s m q hm)

/-- A float is unpacked by its parts. -/
theorem unpacksTo_unpack :
  UnpacksTo (.ofBitVec (unpackSign b)) (unpackExponent b) (unpackMantissa b)
    (UnpackedFloat.unpack .binary64 b)
  := by
  unfold UnpackedFloat.unpack
  dsimp only [exponentBias_eq]
  by_cases hi : unpackExponent b = -1#11
  · rw [if_pos hi]
    by_cases hm : unpackMantissa b = 0#52
    · rw [if_pos hm]
      exact .infinity hi hm
    · rw [if_neg hm]
      exact .notANumber hi hm
  · rw [if_neg hi]
    by_cases hz : unpackExponent b = 0#11
    · rw [if_pos hz]
      by_cases hm : unpackMantissa b = 0#52
      · rw [dif_pos hm]
        exact .zero hz hm
      · rw [dif_neg hm, hz]
        exact .subnormal rfl _
    · rw [if_neg hz]
      have hlast : (unpackExponent b).toNat ≠ 2047 := fun h => hi (BitVec.eq_of_toNat_eq h)
      have hfirst : (unpackExponent b).toNat ≠ 0 := fun h => hz (BitVec.eq_of_toNat_eq h)
      exact .normal hlast hfirst _ (toNat_one_append _) (by omega)

theorem ofBitVec_toBitVec (s : Sign) :
  Sign.ofBitVec s.toBitVec = s
  := by
  cases s <;> rfl

/-- Parts are put together and taken apart. -/
theorem unpacksTo_packComponents (s : Sign) (e : BitVec 11) (f : BitVec 52) :
  UnpacksTo s e f (UnpackedFloat.unpack .binary64 (packComponents .binary64 s e f))
  := by
  have hu := unpacksTo_unpack (packComponents .binary64 s e f)
  rw [unpackSign_packComponents, ofBitVec_toBitVec, UnpackedFloat.unpackExponent_packComponents,
    UnpackedFloat.unpackMantissa_packComponents] at hu
  apply hu

/-- The sign of a zero is that of its sign bit. -/
theorem sign_of_unpack_eq_zero {s : Sign} (h : UnpackedFloat.unpack .binary64 b = .zero s) :
  s = .ofBitVec (unpackSign b)
  := by
  have hu := unpacksTo_unpack b
  rw [h] at hu
  cases hu
  rfl

/-- The sign of a finite float is that of its sign bit, and its mantissa and exponent are
canonical. -/
theorem isCanonical_of_unpack_eq_finite {s : Sign} {m : Nat} {q : Int} {hm : 0 < m}
    (h : UnpackedFloat.unpack .binary64 b = .finite s m q hm) :
  s = .ofBitVec (unpackSign b) ∧ IsCanonical m q
  := by
  have hu := unpacksTo_unpack b
  have hl := unpackMantissa_lt b
  have he := unpackExponent_lt b
  rw [h] at hu
  cases hu with
  | subnormal => exact ⟨rfl, by constructor <;> omega⟩
  | normal => exact ⟨rfl, by constructor <;> omega⟩

variable {s : Sign} {m : Nat} {q : Int} (hm : 0 < m)

/-- Packing a float whose mantissa has all its bits. -/
theorem pack_normal (hl : 2 ^ 52 ≤ m) (h : m < 2 ^ 53) (hq : q ≤ 971) :
  UnpackedFloat.pack .binary64 (.finite s m q hm)
    = packComponents .binary64 s (.ofNat _ (q + 1075).toNat) (.ofNat _ m)
  := by
  have hlog : m.log2 = 52 := (Nat.log2_eq_iff (Nat.ne_of_gt hm)).mpr ⟨hl, h⟩
  have he : q + 1023 + (52 : Nat) = q + 1075 := by omega
  unfold UnpackedFloat.pack
  simp only [exponentBias_eq, hlog, he]
  rw [if_neg (by omega), if_pos (by decide)]

/-- Packing a float whose mantissa lacks bits. -/
theorem pack_subnormal (h : m < 2 ^ 52) :
  UnpackedFloat.pack .binary64 (.finite s m (-1074) hm)
    = packComponents .binary64 s 0 (.ofNat _ m)
  := by
  have hlog : m.log2 < 52 := (Nat.log2_lt (Nat.ne_of_gt hm)).mpr h
  have hb : Format.binary64.mantissaBits = 53 := rfl
  unfold UnpackedFloat.pack
  simp only [exponentBias_eq, hb]
  rw [if_neg (by decide), if_neg (by omega)]
  rfl

/-- Packing is the inverse of unpacking. -/
theorem pack_unpack (hb : Format.binary64.Valid b) :
  UnpackedFloat.pack .binary64 (.unpack .binary64 b) = b
  := by
  have hu := unpacksTo_unpack b
  have hl := unpackMantissa_lt b
  have he := unpackExponent_lt b
  have hp := packComponents_unpack b
  generalize UnpackedFloat.unpack .binary64 b = u at hu ⊢
  cases hu with
  | infinity hi hm =>
    rw [hi, hm] at hp
    apply hp
  | notANumber hi hm => apply (hb.eq_packedNaN hi hm).symm
  | zero hz hm =>
    rw [hz, hm] at hp
    apply hp
  | subnormal hz hm =>
    rw [hz] at hp
    rw [pack_subnormal _ hl, BitVec.ofNat_toNat, BitVec.setWidth_eq]
    apply hp
  | @normal m q hlast hfirst hm hf hq =>
    have hqb : (q + 1075).toNat = (unpackExponent b).toNat := by omega
    have hmb : BitVec.ofNat 52 m = unpackMantissa b := by
      apply BitVec.eq_of_toNat_eq
      rw [BitVec.toNat_ofNat]
      omega
    rw [pack_normal _ (by omega) (by omega) (by omega), hqb, BitVec.ofNat_toNat,
      BitVec.setWidth_eq, hmb]
    apply hp

end Parts

/-- Unpacking is the inverse of packing for parts that a float can have. -/
theorem unpack_pack_finite {s : Sign} {m : Nat} {q : Int} (hm : 0 < m) (hc : IsCanonical m q) :
  UnpackedFloat.unpack .binary64 (UnpackedFloat.pack .binary64 (.finite s m q hm))
    = .finite s m q hm
  := by
  obtain ⟨-, hlt, hq, hq', hml⟩ := hc
  by_cases hl : 2 ^ 52 ≤ m
  · have he : (BitVec.ofNat 11 (q + 1075).toNat).toNat = (q + 1075).toNat := by
      rw [BitVec.toNat_ofNat, Nat.mod_eq_of_lt (by omega)]
    have hf : (BitVec.ofNat 52 m).toNat = m - 2 ^ 52 := by
      rw [BitVec.toNat_ofNat]
      omega
    have hu := unpacksTo_packComponents s (.ofNat 11 (q + 1075).toNat) (.ofNat 52 m)
    rw [pack_normal hm hl hlt hq']
    generalize UnpackedFloat.unpack .binary64 _ = u at hu ⊢
    cases hu with
    | infinity h | notANumber h =>
      have h : (q + 1075).toNat = 2047 := he.symm.trans (congrArg BitVec.toNat h)
      omega
    | zero h | subnormal h =>
      have h : (q + 1075).toNat = 0 := he.symm.trans (congrArg BitVec.toNat h)
      omega
    | @normal m' q' =>
      obtain rfl : m' = m := by omega
      obtain rfl : q' = q := by omega
      rfl
  · obtain rfl : q = -1074 := hml.resolve_right hl
    have hf : (BitVec.ofNat 52 m).toNat = m := by
      rw [BitVec.toNat_ofNat, Nat.mod_eq_of_lt (by omega)]
    have hu := unpacksTo_packComponents s 0#11 (.ofNat 52 m)
    rw [pack_subnormal hm (by omega)]
    generalize UnpackedFloat.unpack .binary64 _ = u at hu ⊢
    cases hu with
    | infinity h | notANumber h => contradiction
    | zero _ h =>
      have h : m = 0 := hf.symm.trans (congrArg BitVec.toNat h)
      omega
    | subnormal =>
      rw [UnpackedFloat.finite.injEq]
      exact ⟨rfl, hf, rfl⟩
    | normal _ h => contradiction

/-! ### Floats -/

/-- A float is determined by its unpacked form. -/
theorem ofModel_pack_unpack (x : Float) :
  Float.ofModel (.pack x.toModel.unpack) = x
  := by
  have h := pack_unpack _ x.toModel.valid
  cases x with
  | ofModel x =>
    cases x with
    | mk bits valid =>
      rw [Float.ofModel.injEq, Float.Model.pack, Float.Model.mk.injEq, Float.Model.unpack, h]

/-- The sign of a float is that of its sign bit. -/
theorem ofBitVec_unpackSign (x : Float) :
  Sign.ofBitVec (@unpackSign .binary64 x.toModel.toBits.toBitVec)
    = if x.toBits.toBitVec.msb then .negative else .positive
  := by
  have hs : @unpackSign .binary64 x.toModel.toBits.toBitVec = .ofBool x.toBits.toBitVec.msb := by
    apply BitVec.eq_of_getLsbD_eq
    intro i hi
    obtain rfl : i = 0 := by omega
    rw [BitVec.msb_eq_getLsbD_last]
    simp only [unpackSign_eq, BitVec.getLsbD_extractLsb', BitVec.getLsbD_ofBool]
    rfl
  rw [hs]
  cases x.toBits.toBitVec.msb <;> rfl

/-- Whether a float is finite and its sign bit is clear. -/
structure IsUnsigned (x : Float) : Prop where
  isFinite : x.isFinite = true
  msb_toBits : x.toBits.toBitVec.msb = false

instance (x : Float) : Decidable (IsUnsigned x) :=
  decidable_of_iff (x.isFinite = true ∧ x.toBits.toBitVec.msb = false)
    ⟨fun h => ⟨h.1, h.2⟩, fun h => ⟨h.1, h.2⟩⟩

/-- A finite float without a sign is zero or a canonical mantissa with an exponent. -/
theorem IsUnsigned.unpack_eq {x : Float} (h : IsUnsigned x) :
  x.toModel.unpack = .zero .positive
    ∨ ∃ m q, ∃ hm : 0 < m, x.toModel.unpack = .finite .positive m q hm ∧ IsCanonical m q
  := by
  have hf : x.toModel.unpack.isFinite = true := h.isFinite
  have hs := ofBitVec_unpackSign x
  rw [h.msb_toBits, if_neg Bool.false_ne_true] at hs
  cases hu : x.toModel.unpack with
  | notANumber =>
    rw [hu] at hf
    contradiction
  | infinity s =>
    rw [hu] at hf
    contradiction
  | zero s =>
    left
    rw [← hs, sign_of_unpack_eq_zero _ hu]
  | finite s m q hm =>
    right
    obtain ⟨rfl, hc⟩ := isCanonical_of_unpack_eq_finite _ hu
    use m, q, hm
    constructor
    · rw [← hs]
    · apply hc

end SliderCalculator.Number
