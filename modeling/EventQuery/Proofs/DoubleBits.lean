import Mathlib
import EventQuery.Number.Binary64

/-!
The bits of a double. A double is known by its bits; taking it apart and packing it again
changes nothing, and a negation changes the sign only.
-/
namespace EventQuery.Number.Binary64

open Float.Model (Format UnpackedFloat)
open Float.Model.UnpackedFloat (Sign packComponents unpackMantissa unpackExponent unpackSign)

/-! ### Sign, exponent and mantissa -/

def mantissaOf (bits : BitVec 64) : BitVec 52 := @unpackMantissa Format.binary64 bits

def exponentOf (bits : BitVec 64) : BitVec 11 := @unpackExponent Format.binary64 bits

def signOf (bits : BitVec 64) : Sign := .ofBitVec (@unpackSign Format.binary64 bits)

/-- The bits with this sign, exponent and mantissa. -/
def components (sign : Sign) (exponent : BitVec 11) (mantissa : BitVec 52) : BitVec 64 :=
  packComponents Format.binary64 sign exponent mantissa

variable {sign : Sign} {exponent : BitVec 11} {mantissa : BitVec 52} {bits : BitVec 64}

theorem toNat_components : (components sign exponent mantissa).toNat =
    sign.toBitVec.toNat * 2 ^ 63 + exponent.toNat * 2 ^ 52 + mantissa.toNat := by
  rw [components, packComponents, BitVec.toNat_append, BitVec.toNat_append,
    ← Nat.shiftLeft_add_eq_or_of_lt exponent.isLt, ← Nat.shiftLeft_add_eq_or_of_lt mantissa.isLt]
  simp only [Nat.shiftLeft_eq]
  omega

theorem toNat_mantissaOf : (mantissaOf bits).toNat = bits.toNat % 2 ^ 52 := by
  simp [mantissaOf, unpackMantissa]

theorem toNat_exponentOf : (exponentOf bits).toNat = bits.toNat / 2 ^ 52 % 2 ^ 11 := by
  simp [exponentOf, unpackExponent, Nat.shiftRight_eq_div_pow]

theorem toNat_signOf : (signOf bits).toBitVec.toNat = bits.toNat / 2 ^ 63 := by
  have same (bit : BitVec 1) : (Sign.ofBitVec bit).toBitVec = bit := by
    revert bit
    decide
  have bound := bits.isLt
  rw [signOf, same]
  simp only [unpackSign, BitVec.toNat_cast, BitVec.extractLsb_toNat, Nat.shiftRight_eq_div_pow]
  omega

theorem components_eq (bits : BitVec 64) :
    components (signOf bits) (exponentOf bits) (mantissaOf bits) = bits := by
  apply BitVec.eq_of_toNat_eq
  rw [toNat_components, toNat_mantissaOf, toNat_exponentOf, toNat_signOf]
  omega

@[simp] theorem mantissaOf_components : mantissaOf (components sign exponent mantissa) = mantissa :=
  Float.Model.UnpackedFloat.unpackMantissa_packComponents

@[simp] theorem exponentOf_components : exponentOf (components sign exponent mantissa) = exponent :=
  Float.Model.UnpackedFloat.unpackExponent_packComponents

@[simp] theorem signOf_components : signOf (components sign exponent mantissa) = sign := by
  have same := @toNat_signOf (components sign exponent mantissa)
  have e := exponent.isLt
  have m := mantissa.isLt
  rw [toNat_components] at same
  cases sign <;> cases found : signOf _ <;> first | rfl | skip
  all_goals
    rw [found] at same
    simp only [Sign.toBitVec, BitVec.toNat_ofNat] at same
    omega

/-! ### Packing and unpacking -/

theorem toNat_leadingOne : (1#1 ++ mantissa).toNat = 2 ^ 52 + mantissa.toNat := by
  rw [BitVec.toNat_append, ← Nat.shiftLeft_add_eq_or_of_lt mantissa.isLt]
  rfl

theorem unpack_eq (bits : BitVec 64) : UnpackedFloat.unpack Format.binary64 bits =
    if exponentOf bits = -1#11 then
      if mantissaOf bits = 0#52 then .infinity (signOf bits) else .notANumber
    else if exponentOf bits = 0#11 then
      if other : mantissaOf bits = 0#52 then .zero (signOf bits)
      else .finite (signOf bits) (mantissaOf bits).toNat ((exponentOf bits).toNat - 1075 + 1)
        (Nat.pos_of_ne_zero fun zero => other (BitVec.eq_of_toNat_eq zero))
    else .finite (signOf bits) (1#1 ++ mantissaOf bits).toNat ((exponentOf bits).toNat - 1075)
      (by rw [toNat_leadingOne]; omega) := rfl

theorem pack_infinity : UnpackedFloat.pack Format.binary64 (.infinity sign) =
    components sign (-1#11) 0#52 := rfl

theorem pack_zero : UnpackedFloat.pack Format.binary64 (.zero sign) = components sign 0#11 0#52 := rfl

theorem pack_finite {mantissa : Nat} {exponent : Int} (positive : 0 < mantissa) :
    UnpackedFloat.pack Format.binary64 (.finite sign mantissa exponent positive) =
      if 2048 ≤ (exponent + 1075).toNat + 1 then components sign (-1#11) 0#52
      else if mantissa.log2 + 1 = 53 then
        components sign (.ofNat 11 (exponent + 1075).toNat) (.ofNat 52 mantissa)
      else components sign 0#11 (.ofNat 52 mantissa) := by
  rw [show (1075 : Int) = (1023 : Nat) + (52 : Nat) from rfl, ← Int.add_assoc]
  rfl

/-- Bits of a number pack again to the same. -/
theorem pack_unpack (valid : Format.binary64.Valid bits) :
    UnpackedFloat.pack Format.binary64 (.unpack Format.binary64 bits) = bits := by
  have bound := (mantissaOf bits).isLt
  rw [unpack_eq]
  split_ifs with top zero least zero
  · rw [pack_infinity, ← top, ← zero, components_eq]
  · exact (valid.eq_packedNaN top zero).symm
  · rw [pack_zero, ← least, ← zero, components_eq]
  · have small : (mantissaOf bits).toNat.log2 < 52 :=
      (Nat.log2_lt fun same => zero (BitVec.eq_of_toNat_eq same)).2 bound
    have exponent : (exponentOf bits).toNat = 0 := by
      rw [least]
      rfl
    rw [pack_finite, if_neg (by omega), if_neg (by omega), BitVec.ofNat_toNat, BitVec.setWidth_eq,
      ← least, components_eq]
  · have below := (exponentOf bits).isLt
    have other : (exponentOf bits).toNat ≠ 2 ^ 11 - 1 := fun same => top (BitVec.eq_of_toNat_eq same)
    have log : (1#1 ++ mantissaOf bits).toNat.log2 = 52 := by
      rw [toNat_leadingOne, Nat.log2_eq_iff (by omega)]
      omega
    have exponent : BitVec.ofNat 11 ((exponentOf bits).toNat - 1075 + 1075 : Int).toNat =
        exponentOf bits := by
      rw [Int.sub_add_cancel, Int.toNat_natCast, BitVec.ofNat_toNat, BitVec.setWidth_eq]
    have mantissa : BitVec.ofNat 52 (1#1 ++ mantissaOf bits).toNat = mantissaOf bits := by
      apply BitVec.eq_of_toNat_eq
      rw [BitVec.toNat_ofNat, toNat_leadingOne]
      omega
    rw [pack_finite, if_neg (by omega), if_pos (by omega), exponent, mantissa, components_eq]

/-- A negation changes the sign only. -/
theorem neg_unpack (bits : BitVec 64) : (UnpackedFloat.unpack Format.binary64 bits).neg =
    .unpack Format.binary64 (components (-signOf bits) (exponentOf bits) (mantissaOf bits)) := by
  rw [unpack_eq, unpack_eq]
  simp only [signOf_components, exponentOf_components, mantissaOf_components]
  split_ifs <;> rfl

/-! ### Doubles -/

theorem eq_of_toBits {x y : Float} (same : x.toBits = y.toBits) : x = y := by
  obtain ⟨⟨bits, valid⟩⟩ := x
  obtain ⟨⟨bits', valid'⟩⟩ := y
  obtain rfl : bits = bits' := same
  rfl

theorem valid_toBits (x : Float) : Format.binary64.Valid x.toBits.toBitVec := x.toModel.valid

theorem ofBits_toBits (x : Float) : Float.ofBits x.toBits = x :=
  eq_of_toBits (congrArg UInt64.ofBitVec (pack_unpack (valid_toBits x)))

theorem toBitVec_toBits_neg (x : Float) : (-x).toBits.toBitVec =
    UnpackedFloat.pack Format.binary64 (UnpackedFloat.unpack Format.binary64 x.toBits.toBitVec).neg :=
  rfl

theorem kind_eq (x : Float) : kind x =
    let bits := x.toBits.toNat
    if bits / 2 ^ 52 % 2 ^ 11 = 2047 then
      if bits % 2 ^ 52 = 0 then .infinite (bits / 2 ^ 63 == 1) else .nan
    else if bits / 2 ^ 52 % 2 ^ 11 = 0 then .finite ⟨bits / 2 ^ 63 == 1, bits % 2 ^ 52, -1074⟩
    else .finite ⟨bits / 2 ^ 63 == 1, 2 ^ 52 + bits % 2 ^ 52,
      -1074 + (bits / 2 ^ 52 % 2 ^ 11 : Nat) - 1⟩ := rfl

theorem kind_eq_nan {x : Float} : kind x = .nan ↔
    exponentOf x.toBits.toBitVec = -1#11 ∧ mantissaOf x.toBits.toBitVec ≠ 0#52 := by
  have exponent : exponentOf x.toBits.toBitVec = -1#11 ↔ x.toBits.toNat / 2 ^ 52 % 2 ^ 11 = 2047 := by
    rw [← BitVec.toNat_inj, toNat_exponentOf]
    rfl
  have mantissa : mantissaOf x.toBits.toBitVec = 0#52 ↔ x.toBits.toNat % 2 ^ 52 = 0 := by
    rw [← BitVec.toNat_inj, toNat_mantissaOf]
    rfl
  rw [kind_eq, exponent, ne_eq, mantissa]
  dsimp only
  split_ifs <;> simp_all

/-- Only one value is no number. -/
theorem eq_notANumber {x : Float} (known : kind x = .nan) : x = notANumber := by
  obtain ⟨exponent, mantissa⟩ := kind_eq_nan.1 known
  refine eq_of_toBits (UInt64.toBitVec_inj.1 ?_)
  rw [(valid_toBits x).eq_packedNaN exponent mantissa]
  decide

/-- A negated number has the other sign bit. -/
theorem toNat_toBits_neg {x : Float} (number : kind x ≠ .nan) :
    (-x).toBits.toNat = (1 - x.toBits.toNat / 2 ^ 63) * 2 ^ 63 + x.toBits.toNat % 2 ^ 63 := by
  let bits := x.toBits.toBitVec
  have valid : Format.binary64.Valid (components (-signOf bits) (exponentOf bits) (mantissaOf bits)) := by
    refine ⟨fun exponent mantissa => absurd (kind_eq_nan.2 ⟨?_, ?_⟩) number⟩
    · exact exponentOf_components.symm.trans exponent
    · exact fun zero => mantissa (mantissaOf_components.trans zero)
  have sign (sign : Sign) : (-sign).toBitVec.toNat = 1 - sign.toBitVec.toNat := by
    cases sign <;> rfl
  rw [← UInt64.toNat_toBitVec, toBitVec_toBits_neg, neg_unpack, pack_unpack valid, toNat_components,
    toNat_exponentOf, toNat_mantissaOf, sign, toNat_signOf, UInt64.toNat_toBitVec]
  omega

theorem kind_neg {x : Float} {parts : Parts} (finite : kind x = .finite parts) :
    kind (-x) = .finite { parts with negative := !parts.negative } := by
  have bound := x.toBits.toNat_lt
  have flipped := toNat_toBits_neg (x := x) (by rw [finite]; exact Kind.noConfusion)
  have exponent : (-x).toBits.toNat / 2 ^ 52 % 2 ^ 11 = x.toBits.toNat / 2 ^ 52 % 2 ^ 11 := by omega
  have mantissa : (-x).toBits.toNat % 2 ^ 52 = x.toBits.toNat % 2 ^ 52 := by omega
  have sign : ((-x).toBits.toNat / 2 ^ 63 == 1) = !(x.toBits.toNat / 2 ^ 63 == 1) := by
    rw [Bool.eq_iff_iff, Bool.not_eq_true', beq_iff_eq, beq_eq_false_iff_ne]
    omega
  rw [kind_eq] at finite ⊢
  dsimp only at finite ⊢
  rw [exponent, mantissa, sign]
  split_ifs at finite ⊢
  · cases finite
    rfl
  · cases finite
    rfl

theorem eq_infinity {x : Float} {negative : Bool} (known : kind x = .infinite negative) :
    x = if negative then -infinity else infinity := by
  rw [kind_eq] at known
  dsimp only at known
  split_ifs at known with top fraction
  cases known
  have bound := x.toBits.toNat_lt
  refine eq_of_toBits (UInt64.toNat_inj.1 ?_)
  have minus : (-infinity).toBits.toNat = 2 ^ 63 + 2047 * 2 ^ 52 := by decide
  have plus : infinity.toBits.toNat = 2047 * 2 ^ 52 := by decide
  split_ifs with sign
  · rw [minus]
    rw [beq_iff_eq] at sign
    omega
  · rw [plus]
    rw [beq_iff_eq] at sign
    omega

theorem neg_neg (x : Float) : - -x = x := by
  cases known : kind x with
  | nan =>
    rw [eq_notANumber known]
    decide
  | infinite negative =>
    rw [eq_infinity known]
    cases negative <;> decide
  | finite parts =>
    have bound := x.toBits.toNat_lt
    have once := toNat_toBits_neg (x := x) (by rw [known]; exact Kind.noConfusion)
    have twice := toNat_toBits_neg (x := -x) (by rw [kind_neg known]; exact Kind.noConfusion)
    refine eq_of_toBits (UInt64.toNat_inj.1 ?_)
    rw [twice]
    omega

end EventQuery.Number.Binary64
