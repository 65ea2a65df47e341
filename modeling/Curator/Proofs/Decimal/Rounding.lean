import Curator.Proofs.Decimal.Double
/-!
How rounding brings a mantissa and an exponent into the form of a double: bits are cut off, or zeros put
behind, until the mantissa has 53 bits or the exponent is the least there is. The exponent of what comes
out is that of the leading bit, or one more where the mantissa is rounded up to a further bit.
-/

set_option autoImplicit false

namespace Curator.Double

open Float.Model Float.Model.UnpackedFloat

/-! Cutting off bits. -/

theorem mantissa_ofMantissaAndAccuracy (mantissa : Nat) (accuracy : Accuracy) :
    (ExtendedMantissa.ofMantissaAndAccuracy mantissa accuracy).mantissa = mantissa := by
  rcases accuracy with _ | (_ | _ | _) <;> rfl

theorem mantissa_shiftRight (number : ExtendedMantissa) (places : Nat) :
    (number >>> places).mantissa = number.mantissa / 2 ^ places := by
  induction places with
  | zero => exact (Nat.div_one _).symm
  | succ places ih =>
      change (number >>> places).mantissa / 2 = _
      rw [ih, Nat.div_div_eq_div_mul, ← Nat.pow_succ]

theorem roundBit_shiftRight_succ (number : ExtendedMantissa) (places : Nat) :
    (number >>> (places + 1)).roundBit = (number.mantissa / 2 ^ places % 2 != 0) := by
  rw [← mantissa_shiftRight]
  rfl

theorem roundedMantissa_bounds (number : ExtendedMantissa) :
    number.mantissa ≤ number.roundedMantissa ∧ number.roundedMantissa ≤ number.mantissa + 1 := by
  rcases number with ⟨mantissa, _ | _, _ | _⟩ <;>
    simp only [ExtendedMantissa.roundedMantissa, ExtendedMantissa.accuracy, Accuracy.roundToNearestEven] <;> omega

theorem roundedMantissa_of_roundBit {number : ExtendedMantissa} (below : number.roundBit = false) :
    number.roundedMantissa = number.mantissa := by
  rcases number with ⟨mantissa, _ | _, _ | _⟩
  · rfl
  · rfl
  · cases below
  · cases below

theorem stickyBit_shiftRight_succ (mantissa places : Nat) :
    (ExtendedMantissa.ofMantissaAndAccuracy mantissa .exact >>> (places + 1)).stickyBit =
      (mantissa % 2 ^ places != 0) := by
  induction places with
  | zero => simp [Nat.mod_one]; rfl
  | succ places ih =>
      have once : (ExtendedMantissa.ofMantissaAndAccuracy mantissa .exact >>> (places + 1 + 1)).stickyBit =
          ((ExtendedMantissa.ofMantissaAndAccuracy mantissa .exact >>> (places + 1)).roundBit ||
            (ExtendedMantissa.ofMantissaAndAccuracy mantissa .exact >>> (places + 1)).stickyBit) := rfl
      rw [once, ih, roundBit_shiftRight_succ, mantissa_ofMantissaAndAccuracy, Nat.mod_pow_succ]
      rcases Nat.mod_two_eq_zero_or_one (mantissa / 2 ^ places) with even | odd
      · simp [even]
      · simp [odd]

theorem roundedMantissa_of_stickyBit {number : ExtendedMantissa} (half : number.roundBit = true)
    (more : number.stickyBit = true) : number.roundedMantissa = number.mantissa + 1 := by
  rcases number with ⟨mantissa, _ | _, _ | _⟩
  · cases half
  · cases half
  · cases more
  · rfl

theorem roundedMantissa_near (mantissa places : Nat) :
    2 * mantissa ≤ (2 * (ExtendedMantissa.ofMantissaAndAccuracy mantissa .exact >>> places).roundedMantissa + 1) *
        2 ^ places ∧
      2 * (ExtendedMantissa.ofMantissaAndAccuracy mantissa .exact >>> places).roundedMantissa * 2 ^ places ≤
        2 * mantissa + 2 ^ places := by
  cases places with
  | zero =>
      have kept : (ExtendedMantissa.ofMantissaAndAccuracy mantissa .exact >>> 0).roundedMantissa = mantissa := rfl
      rw [kept]
      omega
  | succ places =>
      have whole := mantissa_shiftRight (.ofMantissaAndAccuracy mantissa .exact) (places + 1)
      have bit := roundBit_shiftRight_succ (.ofMantissaAndAccuracy mantissa .exact) places
      have rest := stickyBit_shiftRight_succ mantissa places
      rw [mantissa_ofMantissaAndAccuracy] at whole bit
      have split : mantissa = 2 ^ places * (2 * (mantissa / 2 ^ (places + 1)) + mantissa / 2 ^ places % 2) +
          mantissa % 2 ^ places := by
        rw [Nat.pow_succ, ← Nat.div_div_eq_div_mul, Nat.div_add_mod, Nat.div_add_mod]
      have least : 0 ≤ mantissa % 2 ^ places := Nat.zero_le _
      have small : mantissa % 2 ^ places < 2 ^ places := Nat.mod_lt _ (Nat.two_pow_pos places)
      generalize (ExtendedMantissa.ofMantissaAndAccuracy mantissa .exact >>> (places + 1)) = number at whole bit rest ⊢
      rw [← whole] at split
      rw [Nat.pow_succ]
      rcases Nat.mod_two_eq_zero_or_one (mantissa / 2 ^ places) with below | above
      · -- Less than a half is cut off.
        have down : number.roundedMantissa = number.mantissa := roundedMantissa_of_roundBit (by simp [bit, below])
        rw [below] at split
        rw [down]
        constructor <;> linarith
      · obtain ⟨down, up⟩ := roundedMantissa_bounds number
        rw [above] at split
        by_cases half : mantissa % 2 ^ places = 0
        · rw [half] at split
          rcases Nat.lt_or_ge number.mantissa number.roundedMantissa with more | same
          · have next : number.roundedMantissa = number.mantissa + 1 := by omega
            rw [next]
            constructor <;> linarith
          · have next : number.roundedMantissa = number.mantissa := by omega
            rw [next]
            constructor <;> linarith
        · -- More than a half is cut off.
          have next : number.roundedMantissa = number.mantissa + 1 :=
            roundedMantissa_of_stickyBit (by simp [bit, above]) (by simp [rest, half])
          rw [next]
          constructor <;> linarith

/-! The exponent that rounding aims at. -/

def target (mantissa : Nat) (exponent : Int) : Int := max (mantissa.log2 - 52 + exponent) (-1074)

theorem targetExponent_eq (mantissa : Nat) (exponent : Int) :
    Format.binary64.targetExponent (totalExponent mantissa exponent) = target mantissa exponent := by
  have width : (Format.binary64.mantissaBits : Int) = 53 := rfl
  have least : Format.binary64.minExponent = -1074 := rfl
  rw [Format.targetExponent, totalExponent, target, width, least]
  omega

variable {mantissa : Nat} {exponent : Int}

theorem target_of_canonical (canonical : Canonical mantissa exponent) : target mantissa exponent = exponent := by
  obtain ⟨positive, bounded, least, normal⟩ := canonical
  have below : mantissa.log2 < 53 := (Nat.log2_lt positive.ne').mpr bounded
  rw [target]
  rcases normal with full | lowest
  · have above : 52 ≤ mantissa.log2 := (Nat.le_log2 positive.ne').mpr full
    omega
  · omega

theorem canonical_shift (positive : 0 < mantissa) (least : -1074 ≤ exponent)
    (fits : exponent ≤ target mantissa exponent) :
    Canonical (mantissa / 2 ^ (target mantissa exponent - exponent).toNat) (target mantissa exponent) := by
  have lower : 2 ^ mantissa.log2 ≤ mantissa := Nat.log2_self_le positive.ne'
  have upper : mantissa < 2 ^ (mantissa.log2 + 1) := Nat.lt_log2_self
  by_cases long : 52 ≤ mantissa.log2
  · have places : (target mantissa exponent - exponent).toNat = mantissa.log2 - 52 := by
      rw [target]
      omega
    rw [places]
    have full : 2 ^ 52 ≤ mantissa / 2 ^ (mantissa.log2 - 52) := by
      rw [Nat.le_div_iff_mul_le (Nat.two_pow_pos _), ← Nat.pow_add]
      exact (congrArg (2 ^ ·) (by omega)).trans_le lower
    refine ⟨by omega, ?_, le_max_right _ _, .inl full⟩
    rw [Nat.div_lt_iff_lt_mul (Nat.two_pow_pos _), ← Nat.pow_add]
    exact upper.trans_eq (congrArg (2 ^ ·) (by omega))
  · have lowest : target mantissa exponent = -1074 := by
      rw [target] at fits ⊢
      omega
    have places : (target mantissa exponent - exponent).toNat = 0 := by omega
    rw [places, Nat.pow_zero, Nat.div_one]
    exact ⟨positive, upper.trans_le (Nat.pow_le_pow_right (by decide) (by omega)), lowest.ge, .inr lowest⟩

/-! Rounding. -/

theorem shiftToTargetExponent_eq (accuracy : Accuracy) (fits : exponent ≤ target mantissa exponent) :
    shiftToTargetExponent Format.binary64 mantissa exponent accuracy =
      (ExtendedMantissa.ofMantissaAndAccuracy mantissa accuracy >>> (target mantissa exponent - exponent).toNat,
        target mantissa exponent) := by
  rw [shiftToTargetExponent, targetExponent_eq, shiftToExponent]
  exact Prod.ext rfl (by dsimp only; omega)

theorem shiftToTargetExponent_of_canonical (canonical : Canonical mantissa exponent) :
    shiftToTargetExponent Format.binary64 mantissa exponent .exact =
      (ExtendedMantissa.ofMantissaAndAccuracy mantissa .exact, exponent) := by
  have still := target_of_canonical canonical
  rw [shiftToTargetExponent_eq .exact still.ge, still, Int.sub_self]
  rfl

def carried (raised : Nat) (exponent : Int) : Nat × Int :=
  if raised = 2 ^ 53 then (2 ^ 52, exponent + 1) else (raised, exponent)

theorem carried_exponent (raised : Nat) (exponent : Int) :
    exponent ≤ (carried raised exponent).2 ∧ (carried raised exponent).2 ≤ exponent + 1 := by
  rw [carried]
  split <;> constructor <;> dsimp only <;> omega

section Carry

variable {raised : Nat} (canonical : Canonical mantissa exponent) (least : mantissa ≤ raised)
  (most : raised ≤ mantissa + 1)

include canonical least most

theorem carried_canonical : Canonical (carried raised exponent).1 (carried raised exponent).2 := by
  obtain ⟨positive, bounded, lowest, normal⟩ := canonical
  rw [carried]
  split
  · change Canonical (2 ^ 52) (exponent + 1)
    exact ⟨by decide, by decide, by omega, .inl le_rfl⟩
  · change Canonical raised exponent
    exact ⟨by omega, by omega, lowest, by omega⟩

theorem shiftToTargetExponent_carried :
    (shiftToTargetExponent Format.binary64 raised exponent .exact).1.mantissa = (carried raised exponent).1 ∧
      (shiftToTargetExponent Format.binary64 raised exponent .exact).2 = (carried raised exponent).2 := by
  have settled := carried_canonical canonical least most
  rw [carried] at settled ⊢
  split
  · rename_i full
    subst full
    have lowest := canonical.least
    have further : target (2 ^ 53) exponent = exponent + 1 := by
      rw [target, Nat.log2_two_pow]
      omega
    have once : (exponent + 1 - exponent).toNat = 1 := by omega
    rw [shiftToTargetExponent_eq .exact (by omega), further, once, mantissa_shiftRight,
      mantissa_ofMantissaAndAccuracy]
    exact ⟨rfl, rfl⟩
  · rename_i short
    rw [if_neg short] at settled
    rw [shiftToTargetExponent_of_canonical settled]
    exact ⟨rfl, rfl⟩

end Carry

def roundedOff (mantissa : Nat) (exponent : Int) (accuracy : Accuracy) : Nat :=
  (ExtendedMantissa.ofMantissaAndAccuracy mantissa accuracy >>>
    (target mantissa exponent - exponent).toNat).roundedMantissa

theorem roundWithAccuracy_of_carry {result : Nat} {power : Int} (sign : Sign) (accuracy : Accuracy)
    (fits : exponent ≤ target mantissa exponent) (positive : 0 < result)
    (carried : (shiftToTargetExponent Format.binary64 (roundedOff mantissa exponent accuracy)
      (target mantissa exponent) .exact).1.mantissa = result)
    (moved : (shiftToTargetExponent Format.binary64 (roundedOff mantissa exponent accuracy)
      (target mantissa exponent) .exact).2 = power) :
    roundWithAccuracy Format.binary64 sign mantissa exponent accuracy = .finite sign result power positive := by
  subst carried moved
  rw [roundWithAccuracy, shiftToTargetExponent_eq accuracy fits]
  exact dif_neg positive.ne'

theorem roundWithAccuracy_carried (sign : Sign) (accuracy : Accuracy) (positive : 0 < mantissa)
    (least : -1074 ≤ exponent) (fits : exponent ≤ target mantissa exponent) :
    ∃ canonical : Canonical (carried (roundedOff mantissa exponent accuracy) (target mantissa exponent)).1
        (carried (roundedOff mantissa exponent accuracy) (target mantissa exponent)).2,
      roundWithAccuracy Format.binary64 sign mantissa exponent accuracy =
        .finite sign (carried (roundedOff mantissa exponent accuracy) (target mantissa exponent)).1
          (carried (roundedOff mantissa exponent accuracy) (target mantissa exponent)).2 canonical.positive := by
  have first : Canonical (ExtendedMantissa.ofMantissaAndAccuracy mantissa accuracy >>>
      (target mantissa exponent - exponent).toNat).mantissa (target mantissa exponent) := by
    rw [mantissa_shiftRight, mantissa_ofMantissaAndAccuracy]
    exact canonical_shift positive least fits
  obtain ⟨down, up⟩ := roundedMantissa_bounds _
  obtain ⟨held, moved⟩ := shiftToTargetExponent_carried first down up
  have canonical := carried_canonical first down up
  exact ⟨canonical, roundWithAccuracy_of_carry sign accuracy fits canonical.positive held moved⟩

theorem roundWithAccuracy_canonical (sign : Sign) (accuracy : Accuracy) (positive : 0 < mantissa)
    (least : -1074 ≤ exponent) (fits : exponent ≤ target mantissa exponent) :
    ∃ result power, ∃ canonical : Canonical result power,
      roundWithAccuracy Format.binary64 sign mantissa exponent accuracy =
        .finite sign result power canonical.positive ∧
      target mantissa exponent ≤ power ∧ power ≤ target mantissa exponent + 1 := by
  obtain ⟨canonical, rounded⟩ := roundWithAccuracy_carried sign accuracy positive least fits
  exact ⟨_, _, canonical, rounded, carried_exponent _ _⟩

theorem shiftLeft_pos (positive : 0 < mantissa) (places : Nat) : 0 < mantissa <<< places := by
  rw [Nat.shiftLeft_eq]
  exact Nat.mul_pos positive (Nat.two_pow_pos _)

theorem log2_mul_two_pow_add {places rest : Nat} (positive : 0 < mantissa) (below : rest < 2 ^ places) :
    (mantissa * 2 ^ places + rest).log2 = mantissa.log2 + places := by
  have first : 2 ^ mantissa.log2 * 2 ^ places ≤ mantissa * 2 ^ places :=
    Nat.mul_le_mul_right _ (Nat.log2_self_le positive.ne')
  have next : (mantissa + 1) * 2 ^ places ≤ 2 ^ (mantissa.log2 + 1) * 2 ^ places :=
    Nat.mul_le_mul_right _ Nat.lt_log2_self
  have above : 0 < mantissa * 2 ^ places := Nat.mul_pos positive (Nat.two_pow_pos _)
  rw [Nat.succ_mul] at next
  rw [Nat.log2_eq_iff (by omega), Nat.add_right_comm, Nat.pow_add, Nat.pow_add]
  constructor <;> omega

theorem target_shiftLeft (positive : 0 < mantissa) (exponent : Int) (places : Nat) :
    target (mantissa <<< places) (exponent - places) = target mantissa exponent := by
  have moved := log2_mul_two_pow_add positive (Nat.two_pow_pos places)
  rw [target, target, Nat.shiftLeft_eq, ← Nat.add_zero (mantissa * 2 ^ places), moved]
  omega

theorem round_canonical (sign : Sign) (positive : 0 < mantissa) (least : -1074 ≤ exponent) :
    ∃ result power, ∃ canonical : Canonical result power,
      UnpackedFloat.round Format.binary64 sign mantissa exponent = .finite sign result power canonical.positive ∧
      power ≤ target mantissa exponent + 1 := by
  have lowest : -1074 ≤ target mantissa exponent := le_max_right _ _
  have low : -1074 ≤ exponent - (exponent - target mantissa exponent).toNat := by omega
  have fits : exponent - (exponent - target mantissa exponent).toNat ≤ target mantissa exponent := by omega
  rw [UnpackedFloat.round, targetExponent_eq, decreaseExponent]
  dsimp only
  generalize (exponent - target mantissa exponent).toNat = places at low fits ⊢
  rw [← target_shiftLeft positive exponent places] at fits ⊢
  obtain ⟨result, power, canonical, rounded, -, upper⟩ :=
    roundWithAccuracy_canonical sign .exact (shiftLeft_pos positive places) low fits
  exact ⟨result, power, canonical, rounded, upper⟩

theorem round_of_low_rest {places rest : Nat} (sign : Sign) (canonical : Canonical mantissa exponent)
    (small : rest < 2 ^ places) (least : -1074 ≤ exponent - (places + 1)) :
    UnpackedFloat.round Format.binary64 sign (mantissa * 2 ^ (places + 1) + rest) (exponent - (places + 1)) =
      .finite sign mantissa exponent canonical.positive := by
  have half : (mantissa * 2 ^ (places + 1) + rest) / 2 ^ places = 2 * mantissa := by
    rw [Nat.pow_succ', ← Nat.mul_assoc, Nat.mul_comm mantissa, Nat.add_comm,
      Nat.add_mul_div_right _ _ (Nat.two_pow_pos _), Nat.div_eq_of_lt small, Nat.zero_add]
  have whole : (mantissa * 2 ^ (places + 1) + rest) / 2 ^ (places + 1) = mantissa := by
    rw [Nat.pow_succ, ← Nat.div_div_eq_div_mul, ← Nat.pow_succ, half]
    omega
  have aim : target (mantissa * 2 ^ (places + 1) + rest) (exponent - (places + 1)) = exponent := by
    have own := target_of_canonical canonical
    have below : rest < 2 ^ (places + 1) := small.trans (Nat.pow_lt_pow_succ (by decide))
    rw [target] at own ⊢
    rw [log2_mul_two_pow_add canonical.positive below]
    omega
  have cut : (exponent - (exponent - (places + 1))).toNat = places + 1 := by omega
  have ample : (exponent - (places + 1) - exponent).toNat = 0 := by omega
  have kept : roundedOff (mantissa * 2 ^ (places + 1) + rest) (exponent - (places + 1)) .exact = mantissa := by
    rw [roundedOff, aim, cut, roundedMantissa_of_roundBit, mantissa_shiftRight, mantissa_ofMantissaAndAccuracy,
      whole]
    rw [roundBit_shiftRight_succ, mantissa_ofMantissaAndAccuracy, half]
    simp
  have still := shiftToTargetExponent_of_canonical canonical
  rw [UnpackedFloat.round, targetExponent_eq, aim, decreaseExponent, ample]
  dsimp only
  rw [Nat.shiftLeft_zero, Int.ofNat_zero, Int.sub_zero]
  refine roundWithAccuracy_of_carry sign .exact (by omega) canonical.positive ?_ ?_
  · rw [kept, aim, still, mantissa_ofMantissaAndAccuracy]
  · rw [kept, aim, still]

end Curator.Double
