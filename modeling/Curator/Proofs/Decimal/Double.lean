import Mathlib
/-!
Doubles that are not negative: zero, a mantissa over a power of two, or infinity. In which form a double
has its mantissa and exponent, and that parts in this form are what comes back when they are packed.
-/

set_option autoImplicit false

namespace Curator.Double

open Float.Model Float.Model.UnpackedFloat

/-- The parts of a double that is neither zero nor infinite: a mantissa of 53 bits, or of fewer bits
where the exponent is the least there is. -/
structure Canonical (mantissa : Nat) (exponent : Int) : Prop where
  positive : 0 < mantissa
  bounded : mantissa < 2 ^ 53
  least : -1074 ≤ exponent
  normal : 2 ^ 52 ≤ mantissa ∨ exponent = -1074

/-! Parts that are packed and taken apart again. -/

theorem unpack_pack (number : UnpackedFloat) :
    (Float.Model.pack number).unpack = unpack Format.binary64 (pack Format.binary64 number) := rfl

theorem unpack_pack_zero (sign : Sign) : (Float.Model.pack (.zero sign)).unpack = .zero sign := unpack_packedZero

theorem unpack_pack_infinity (sign : Sign) : (Float.Model.pack (.infinity sign)).unpack = .infinity sign := by
  cases sign <;> rfl

theorem toNat_one_append (mantissa : BitVec 52) : (1#1 ++ mantissa).toNat = 2 ^ 52 + mantissa.toNat := by
  rw [BitVec.toNat_append, ← Nat.shiftLeft_add_eq_or_of_lt mantissa.isLt]
  rfl

theorem unpack_normal (sign : Sign) (stored : BitVec 11) (fraction : BitVec 52) (above : 0 < stored.toNat)
    (below : stored.toNat < 2047) :
    unpack Format.binary64 (packComponents Format.binary64 sign stored fraction) =
      .finite sign (2 ^ 52 + fraction.toNat) (stored.toNat - 1075) (by omega) := by
  have bounded : stored ≠ -1#11 := by
    rintro rfl
    exact absurd below (by decide)
  have apart : stored ≠ 0#11 := by
    rintro rfl
    exact absurd above (by decide)
  rw [UnpackedFloat.unpack]
  simp only [unpackMantissa_packComponents, unpackExponent_packComponents, unpackSign_packComponents,
    Sign.ofBitVec_toBitVec, toNat_one_append]
  rw [if_neg bounded, if_neg apart]
  rfl

theorem unpack_subnormal (sign : Sign) (fraction : BitVec 52) (positive : 0 < fraction.toNat) :
    unpack Format.binary64 (packComponents Format.binary64 sign 0#11 fraction) =
      .finite sign fraction.toNat (-1074) positive := by
  have apart : fraction ≠ 0#52 := by
    rintro rfl
    exact absurd positive (by decide)
  rw [UnpackedFloat.unpack]
  simp only [unpackMantissa_packComponents, unpackExponent_packComponents, unpackSign_packComponents,
    Sign.ofBitVec_toBitVec]
  rw [if_neg (by decide), if_pos trivial, dif_neg apart]
  rfl

variable {mantissa : Nat} {exponent : Int}

theorem canonical_of_unpack {number : Float.Model} {sign : Sign} {positive : 0 < mantissa}
    (parts : number.unpack = .finite sign mantissa exponent positive) : Canonical mantissa exponent := by
  have size := (@unpackMantissa Format.binary64 number.toBits.toBitVec).isLt
  have bias : (Format.binary64.exponentBias : Int) = 1023 := rfl
  rw [Float.Model.unpack, UnpackedFloat.unpack] at parts
  dsimp only at parts size
  split at parts
  · split at parts <;> cases parts
  · split at parts
    · rename_i subnormal
      have lowest : (@unpackExponent Format.binary64 number.toBits.toBitVec).toNat = 0 :=
        congrArg BitVec.toNat subnormal
      split at parts
      · cases parts
      · injection parts with _ same above
        rw [bias] at above
        constructor <;> omega
    · rename_i normal
      have higher : (@unpackExponent Format.binary64 number.toBits.toBitVec).toNat ≠ 0 :=
        fun same => normal (BitVec.eq_of_toNat_eq same)
      injection parts with _ same above
      rw [toNat_one_append] at same
      rw [bias] at above
      constructor <;> omega

theorem unpack_pack_overflow (sign : Sign) (canonical : Canonical mantissa exponent) (beyond : 971 < exponent) :
    (Float.Model.pack (.finite sign mantissa exponent canonical.positive)).unpack = .infinity sign := by
  have bias : (Format.binary64.exponentBias : Int) = 1023 := rfl
  have packed : pack Format.binary64 (.finite sign mantissa exponent canonical.positive) =
      packedInfinity Format.binary64 sign := by
    rw [UnpackedFloat.pack]
    refine if_pos ?_
    rw [bias]
    simp only
    omega
  rw [unpack_pack, packed, ← unpack_pack_infinity sign, unpack_pack]
  rfl

theorem unpack_pack_finite (sign : Sign) (canonical : Canonical mantissa exponent) (greatest : exponent ≤ 971) :
    (Float.Model.pack (.finite sign mantissa exponent canonical.positive)).unpack =
      .finite sign mantissa exponent canonical.positive := by
  have bias : (Format.binary64.exponentBias : Int) = 1023 := rfl
  have width : Format.binary64.mantissaBits = 53 := rfl
  rw [unpack_pack, UnpackedFloat.pack]
  dsimp only
  obtain ⟨positive, bounded, least, normal⟩ := canonical
  rw [bias, width, if_neg (by omega)]
  generalize biased : (exponent + 1023 + 52).toNat = stored
  by_cases full : 2 ^ 52 ≤ mantissa
  · have leading : mantissa.log2 + 1 = 53 := by
      have above : 52 ≤ mantissa.log2 := (Nat.le_log2 positive.ne').mpr full
      have below : mantissa.log2 < 53 := (Nat.log2_lt positive.ne').mpr bounded
      omega
    have kept : (BitVec.ofNat 11 stored).toNat = stored := by
      rw [BitVec.toNat_ofNat, Nat.mod_eq_of_lt (by omega)]
    have rest : (BitVec.ofNat 52 mantissa).toNat = mantissa - 2 ^ 52 := by
      rw [BitVec.toNat_ofNat]
      omega
    rw [if_pos leading, unpack_normal sign _ _ (by omega) (by omega)]
    congr 1 <;> omega
  · have short : ¬ mantissa.log2 + 1 = 53 := by
      have below : mantissa.log2 < 52 := (Nat.log2_lt positive.ne').mpr (by omega)
      omega
    have kept : (BitVec.ofNat 52 mantissa).toNat = mantissa := by
      rw [BitVec.toNat_ofNat, Nat.mod_eq_of_lt (by omega)]
    rw [if_neg short, unpack_subnormal sign _ (by omega)]
    congr 1
    omega

end Curator.Double
