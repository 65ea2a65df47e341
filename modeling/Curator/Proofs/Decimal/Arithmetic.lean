import Curator.Proofs.Decimal.Rounding
/-!
Sums and quotients of doubles that are not negative, as far as signs and exponents go. A sum is at most
two exponents above the larger of its terms, and a term that is 54 exponents below the other is lost in
it. A quotient is positive unless its divisor is far above what is divided.
-/

set_option autoImplicit false

namespace Curator.Double

open Float.Model Float.Model.UnpackedFloat

variable {mantissa mantissa' : Nat} {exponent exponent' : Int}

/-! Sums of two finite parts. -/

def aligned (mantissa mantissa' : Nat) (exponent exponent' : Int) : Nat :=
  mantissa <<< (exponent - min exponent exponent').toNat + mantissa' <<< (exponent' - min exponent exponent').toNat

theorem add_finite (positive : 0 < mantissa) (positive' : 0 < mantissa') :
    UnpackedFloat.add Format.binary64 (.finite .positive mantissa exponent positive)
        (.finite .positive mantissa' exponent' positive') =
      UnpackedFloat.round Format.binary64 .positive (aligned mantissa mantissa' exponent exponent')
        (min exponent exponent') := by
  have above : 0 < aligned mantissa mantissa' exponent exponent' :=
    Nat.add_pos_left (shiftLeft_pos positive _) _
  have more : compare (aligned mantissa mantissa' exponent exponent' : Int) 0 = .gt := by
    rw [Int.compare_eq_gt]
    exact_mod_cast above
  change UnpackedFloat.normalize Format.binary64 (aligned mantissa mantissa' exponent exponent' : Int)
    (min exponent exponent') .positive = _
  rw [UnpackedFloat.normalize, more]
  rfl

theorem shiftLeft_lt {bits places room : Nat} (bounded : mantissa < 2 ^ bits) (fits : places ≤ room) :
    mantissa <<< places < 2 ^ (bits + room) := by
  rw [Nat.shiftLeft_eq]
  calc mantissa * 2 ^ places < 2 ^ bits * 2 ^ places := Nat.mul_lt_mul_of_pos_right bounded (Nat.two_pow_pos _)
    _ = 2 ^ (bits + places) := (Nat.pow_add ..).symm
    _ ≤ 2 ^ (bits + room) := Nat.pow_le_pow_right (by decide) (by omega)

theorem aligned_lt (bounded : mantissa < 2 ^ 53) (bounded' : mantissa' < 2 ^ 53) :
    aligned mantissa mantissa' exponent exponent' <
      2 ^ (54 + (max exponent exponent' - min exponent exponent').toNat) := by
  have first : mantissa <<< (exponent - min exponent exponent').toNat <
      2 ^ (53 + (max exponent exponent' - min exponent exponent').toNat) := shiftLeft_lt bounded (by omega)
  have second : mantissa' <<< (exponent' - min exponent exponent').toNat <
      2 ^ (53 + (max exponent exponent' - min exponent exponent').toNat) := shiftLeft_lt bounded' (by omega)
  rw [aligned, Nat.pow_add]
  rw [Nat.pow_add] at first second
  omega

theorem add_canonical (canonical : Canonical mantissa exponent) (canonical' : Canonical mantissa' exponent') :
    ∃ sum power, ∃ summed : Canonical sum power,
      UnpackedFloat.add Format.binary64 (.finite .positive mantissa exponent canonical.positive)
          (.finite .positive mantissa' exponent' canonical'.positive) =
        .finite .positive sum power summed.positive ∧
      power ≤ max exponent exponent' + 2 := by
  have above : 0 < aligned mantissa mantissa' exponent exponent' :=
    Nat.add_pos_left (shiftLeft_pos canonical.positive _) _
  have low : -1074 ≤ min exponent exponent' := le_min canonical.least canonical'.least
  obtain ⟨sum, power, summed, rounded, near⟩ := round_canonical .positive above low
  refine ⟨sum, power, summed, (add_finite canonical.positive canonical'.positive).trans rounded, ?_⟩
  have bits := (Nat.log2_lt above.ne').mpr (aligned_lt canonical.bounded canonical'.bounded)
  rw [target] at near
  omega

theorem add_absorbs (canonical : Canonical mantissa exponent) (canonical' : Canonical mantissa' exponent')
    (far : exponent' + 54 ≤ exponent) :
    UnpackedFloat.add Format.binary64 (.finite .positive mantissa exponent canonical.positive)
        (.finite .positive mantissa' exponent' canonical'.positive) =
      .finite .positive mantissa exponent canonical.positive := by
  obtain ⟨places, apart⟩ : ∃ places : Nat, (exponent - exponent').toNat = places + 1 :=
    Nat.exists_eq_add_one.mpr (by omega)
  have lower : min exponent exponent' = exponent - (places + 1) := by omega
  have small : mantissa' < 2 ^ places := canonical'.bounded.trans_le (Nat.pow_le_pow_right (by decide) (by omega))
  have sum : aligned mantissa mantissa' exponent exponent' = mantissa * 2 ^ (places + 1) + mantissa' := by
    have least : (exponent' - min exponent exponent').toNat = 0 := by omega
    have most : (exponent - min exponent exponent').toNat = places + 1 := by omega
    rw [aligned, least, most, Nat.shiftLeft_eq, Nat.shiftLeft_zero]
  have least := canonical'.least
  rw [add_finite canonical.positive canonical'.positive, sum, lower]
  exact round_of_low_rest .positive canonical small (by omega)

/-! Quotients of two finite parts. -/

def divided (mantissa mantissa' : Nat) (exponent exponent' : Int) : Int :=
  min (exponent - exponent') (max (mantissa.log2 + exponent - (mantissa'.log2 + exponent') - 53) (-1074))

theorem divCore_eq (mantissa mantissa' : Nat) (exponent exponent' : Int) :
    divCore Format.binary64 mantissa exponent mantissa' exponent' =
      let places := (exponent - exponent' - divided mantissa mantissa' exponent exponent').toNat
      (mantissa <<< places / mantissa', divided mantissa mantissa' exponent exponent',
        accuracyOfFraction (mantissa <<< places % mantissa') mantissa') := by
  have width : (Format.binary64.mantissaBits : Int) = 53 := rfl
  have least : Format.binary64.minExponent = -1074 := rfl
  have aim : min (exponent - exponent') (Format.binary64.targetExponent
      (totalExponent mantissa exponent - totalExponent mantissa' exponent')) =
      divided mantissa mantissa' exponent exponent' := by
    rw [Format.targetExponent, totalExponent, totalExponent, divided, width, least]
    congr 2
    omega
  rw [divCore, aim]

theorem quotient_ge (positive : 0 < mantissa) (positive' : 0 < mantissa') {places : Nat}
    (enough : mantissa'.log2 + 53 ≤ mantissa.log2 + places) : 2 ^ 52 ≤ mantissa <<< places / mantissa' := by
  rw [Nat.le_div_iff_mul_le positive', Nat.shiftLeft_eq]
  calc 2 ^ 52 * mantissa' ≤ 2 ^ 52 * 2 ^ (mantissa'.log2 + 1) := Nat.mul_le_mul_left _ Nat.lt_log2_self.le
    _ = 2 ^ (52 + (mantissa'.log2 + 1)) := (Nat.pow_add ..).symm
    _ ≤ 2 ^ (mantissa.log2 + places) := Nat.pow_le_pow_right (by decide) (by omega)
    _ = 2 ^ mantissa.log2 * 2 ^ places := Nat.pow_add ..
    _ ≤ mantissa * 2 ^ places := Nat.mul_le_mul_right _ (Nat.log2_self_le positive.ne')

theorem div_canonical (canonical : Canonical mantissa exponent) (canonical' : Canonical mantissa' exponent')
    (near : exponent' ≤ exponent + 55) :
    ∃ share power, ∃ shared : Canonical share power,
      UnpackedFloat.div Format.binary64 (.finite .positive mantissa exponent canonical.positive)
          (.finite .positive mantissa' exponent' canonical'.positive) =
        .finite .positive share power shared.positive := by
  have bits : mantissa.log2 < 53 := (Nat.log2_lt canonical.positive.ne').mpr canonical.bounded
  have bits' : mantissa'.log2 < 53 := (Nat.log2_lt canonical'.positive.ne').mpr canonical'.bounded
  have low : -1074 ≤ divided mantissa mantissa' exponent exponent' := by
    rw [divided]
    omega
  have enough : mantissa'.log2 + 53 ≤
      mantissa.log2 + (exponent - exponent' - divided mantissa mantissa' exponent exponent').toNat := by
    rw [divided]
    omega
  have large := quotient_ge canonical.positive canonical'.positive enough
  have positive := (Nat.two_pow_pos 52).trans_le large
  have leading := (Nat.le_log2 positive.ne').mpr large
  rw [UnpackedFloat.div, divCore_eq]
  dsimp only
  generalize mantissa <<< _ / mantissa' = quotient at positive leading ⊢
  have fits : divided mantissa mantissa' exponent exponent' ≤
      target quotient (divided mantissa mantissa' exponent exponent') := by
    rw [target]
    omega
  obtain ⟨share, power, shared, rounded, -, -⟩ := roundWithAccuracy_canonical .positive _ positive low fits
  exact ⟨share, power, shared, rounded⟩

end Curator.Double
