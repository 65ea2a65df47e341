import Curator.Decimal.Binary
import Mathlib.Algebra.Order.Field.Rat
import Mathlib.Tactic.Positivity
/-!
What the parts of a double are worth as a fraction, and that this is a whole number exactly when
`whole?` finds one.
-/

set_option autoImplicit false

namespace Curator.Binary

def value (parts : Binary) : ℚ := signed parts.negative parts.significand * 2 ^ parts.exponent

theorem signed_mul (negative : Bool) (magnitude factor : Nat) :
    signed negative (magnitude * factor) = signed negative magnitude * factor := by
  cases negative <;> simp [signed]

theorem natAbs_signed (negative : Bool) (magnitude : Nat) : (signed negative magnitude).natAbs = magnitude := by
  cases negative <;> simp [signed]

theorem value_eq_iff_of_places {parts : Binary} {whole : Int} (fraction : ¬ 0 ≤ parts.exponent) :
    parts.value = whole ↔
      signed parts.negative parts.significand = whole * (Nat.pow 2 (-parts.exponent).toNat : Nat) := by
  have exponent : parts.exponent = -((-parts.exponent).toNat : Int) := by omega
  generalize (-parts.exponent).toNat = places at exponent ⊢
  have positive : (2 : ℚ) ^ places ≠ 0 := by positivity
  rw [value, exponent, zpow_neg, zpow_natCast, ← div_eq_mul_inv, div_eq_iff positive]
  norm_cast

theorem whole?_eq_some_iff {parts : Binary} {whole : Int} : parts.whole? = some whole ↔ parts.value = whole := by
  by_cases above : 0 ≤ parts.exponent
  · have exponent : parts.exponent = (parts.exponent.toNat : Int) := by omega
    rw [whole?, if_pos above, Option.some_inj, value, exponent, zpow_natCast, signed_mul]
    norm_cast
  · rw [value_eq_iff_of_places above, whole?, if_neg above]
    generalize scaled : Nat.pow 2 (-parts.exponent).toNat = scale
    have positive : 0 < scale := scaled ▸ Nat.two_pow_pos _
    have apart : (scale : Int) ≠ 0 := by omega
    by_cases multiple : parts.significand % scale = 0
    · have split : parts.significand = parts.significand / scale * scale :=
        (Nat.div_mul_cancel (Nat.dvd_of_mod_eq_zero multiple)).symm
      rw [if_pos multiple, Option.some_inj]
      conv_rhs => rw [split, signed_mul]
      exact (mul_left_inj' apart).symm
    · rw [if_neg multiple]
      refine iff_of_false nofun fun same => multiple ?_
      have size : parts.significand = whole.natAbs * scale := by
        rw [← natAbs_signed parts.negative parts.significand, same, Int.natAbs_mul, Int.natAbs_natCast]
      rw [size, Nat.mul_mod_left]

end Curator.Binary
