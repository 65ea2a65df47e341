import Curator.Decimal.Shortest
import Curator.Proofs.Decimal.Double
/-!
The shortest decimal of a double lies in the interval that rounds to the double. Seventeen digits are
enough to get into the interval, and no two doubles share a point of theirs: where two intervals touch,
one of the significands is odd, and its interval is open.
-/

set_option autoImplicit false

namespace Curator

namespace Binary

variable {parts other : Binary}

def magnitude (parts : Binary) : ℚ := parts.significand * 2 ^ parts.exponent

def quarter (parts : Binary) : ℚ := 2 ^ (parts.exponent - 2)

def slack (parts : Binary) : Nat := if parts.significand = 2 ^ 52 ∧ -1074 < parts.exponent then 1 else 2

def least (parts : Binary) : ℚ := (4 * parts.significand - parts.slack) * parts.quarter

def greatest (parts : Binary) : ℚ := (4 * parts.significand + 2) * parts.quarter

def Attracts (parts : Binary) (point : ℚ) : Prop :=
  if parts.significand % 2 = 0 then parts.least ≤ point ∧ point ≤ parts.greatest
  else parts.least < point ∧ point < parts.greatest

theorem quarter_pos (parts : Binary) : 0 < parts.quarter := zpow_pos (by norm_num) _

theorem slack_pos (parts : Binary) : 0 < parts.slack := by
  rw [slack]
  split <;> norm_num

theorem slack_le (parts : Binary) : parts.slack ≤ 2 := by
  rw [slack]
  split <;> norm_num

theorem magnitude_eq_quarters (parts : Binary) : parts.magnitude = 4 * parts.significand * parts.quarter := by
  rw [magnitude, quarter, zpow_sub₀ (by norm_num)]
  ring

theorem least_lt_magnitude (parts : Binary) : parts.least < parts.magnitude := by
  have some : (0 : ℚ) < parts.slack := by exact_mod_cast parts.slack_pos
  rw [least, magnitude_eq_quarters]
  exact mul_lt_mul_of_pos_right (by linarith) parts.quarter_pos

theorem magnitude_lt_greatest (parts : Binary) : parts.magnitude < parts.greatest := by
  rw [greatest, magnitude_eq_quarters]
  exact mul_lt_mul_of_pos_right (by linarith) parts.quarter_pos

theorem Attracts.bounds {point : ℚ} (attracts : parts.Attracts point) :
    parts.least ≤ point ∧ point ≤ parts.greatest := by
  rw [Attracts] at attracts
  split at attracts
  · exact attracts
  · exact ⟨attracts.1.le, attracts.2.le⟩

theorem attracts_of_inside {point : ℚ} (above : parts.least < point) (below : point < parts.greatest) :
    parts.Attracts point := by
  rw [Attracts]
  split
  · exact ⟨above.le, below.le⟩
  · exact ⟨above, below⟩

theorem Attracts.even_of_greatest {point : ℚ} (attracts : parts.Attracts point) (edge : parts.greatest ≤ point) :
    parts.significand % 2 = 0 := by
  by_contra odd
  rw [Attracts, if_neg odd] at attracts
  exact absurd attracts.2 edge.not_gt

theorem Attracts.even_of_least {point : ℚ} (attracts : parts.Attracts point) (edge : point ≤ parts.least) :
    parts.significand % 2 = 0 := by
  by_contra odd
  rw [Attracts, if_neg odd] at attracts
  exact absurd attracts.1 edge.not_gt

/-! Which of two intervals is above the other. -/

theorem greatest_le_of_lt (level : parts.exponent = other.exponent) (less : parts.significand < other.significand) :
    parts.greatest ≤ other.least ∧ (other.least ≤ parts.greatest → other.significand = parts.significand + 1) := by
  have quarter : other.quarter = parts.quarter := by rw [Binary.quarter, Binary.quarter, level]
  have few : (other.slack : ℚ) ≤ 2 := by exact_mod_cast other.slack_le
  have above : (parts.significand : ℚ) + 1 ≤ other.significand := by exact_mod_cast less
  rw [greatest, least, quarter]
  refine ⟨mul_le_mul_of_nonneg_right (by linarith) parts.quarter_pos.le, fun touch => ?_⟩
  have close := le_of_mul_le_mul_right touch parts.quarter_pos
  have below : (other.significand : ℚ) < parts.significand + 2 := by linarith
  have below : other.significand < parts.significand + 2 := by exact_mod_cast below
  omega

section Apart

variable (canonical : Double.Canonical parts.significand parts.exponent)
  (canonical' : Double.Canonical other.significand other.exponent)
include canonical canonical'

theorem greatest_le_of_exponent_lt (less : parts.exponent < other.exponent) :
    parts.greatest ≤ other.least ∧ (other.least ≤ parts.greatest → parts.significand % 2 = 1) := by
  obtain ⟨-, bounded, least', -⟩ := canonical
  have normal : 2 ^ 52 ≤ other.significand := canonical'.normal.resolve_right (by omega)
  have most : (4 * parts.significand + 2 : ℚ) ≤ 2 ^ 55 - 2 := by
    have whole : (parts.significand : ℚ) + 1 ≤ 2 ^ 53 := by exact_mod_cast bounded
    linarith
  have lowest : (2 ^ 54 - 1 : ℚ) ≤ 4 * other.significand - other.slack := by
    have whole : (2 ^ 52 : ℚ) ≤ other.significand := by exact_mod_cast normal
    by_cases edge : other.significand = 2 ^ 52
    · rw [slack, if_pos ⟨edge, by omega⟩]
      push_cast
      linarith
    · have more : 2 ^ 52 + 1 ≤ other.significand := by omega
      have whole : (2 ^ 52 + 1 : ℚ) ≤ other.significand := by exact_mod_cast more
      have few : (other.slack : ℚ) ≤ 2 := by exact_mod_cast other.slack_le
      linarith
  have double : 2 * parts.quarter ≤ other.quarter := by
    rw [quarter, quarter, ← zpow_one_add₀ (by norm_num)]
    exact zpow_le_zpow_right₀ (by norm_num) (by omega)
  have room : (2 ^ 55 - 2) * parts.quarter ≤ other.least := by
    calc (2 ^ 55 - 2) * parts.quarter = (2 ^ 54 - 1) * (2 * parts.quarter) := by ring
      _ ≤ (2 ^ 54 - 1) * other.quarter := mul_le_mul_of_nonneg_left double (by norm_num)
      _ ≤ other.least := mul_le_mul_of_nonneg_right lowest other.quarter_pos.le
  refine ⟨(mul_le_mul_of_nonneg_right most parts.quarter_pos.le).trans room, fun touch => ?_⟩
  have close := le_of_mul_le_mul_right (room.trans touch) parts.quarter_pos
  have full : (2 ^ 53 : ℚ) ≤ parts.significand + 1 := by linarith
  have full : 2 ^ 53 ≤ parts.significand + 1 := by exact_mod_cast full
  omega

theorem not_attracts_of_lt (less : parts.exponent < other.exponent ∨
      parts.exponent = other.exponent ∧ parts.significand < other.significand) {point : ℚ}
    (attracts : parts.Attracts point) (attracts' : other.Attracts point) : False := by
  have reach : other.least ≤ parts.greatest := attracts'.bounds.1.trans attracts.bounds.2
  rcases less with higher | ⟨level, less⟩
  · obtain ⟨apart, odd⟩ := greatest_le_of_exponent_lt canonical canonical' higher
    have even := attracts.even_of_greatest (apart.trans attracts'.bounds.1)
    have := odd reach
    omega
  · obtain ⟨apart, next⟩ := greatest_le_of_lt level less
    have even := attracts.even_of_greatest (apart.trans attracts'.bounds.1)
    have even' := attracts'.even_of_least (attracts.bounds.2.trans apart)
    have := next reach
    omega

end Apart

theorem eq_of_attracts (canonical : Double.Canonical parts.significand parts.exponent)
    (canonical' : Double.Canonical other.significand other.exponent) {point : ℚ} (attracts : parts.Attracts point)
    (attracts' : other.Attracts point) :
    parts.significand = other.significand ∧ parts.exponent = other.exponent := by
  by_cases level : parts.exponent = other.exponent
  · refine ⟨?_, level⟩
    by_contra apart
    rcases Nat.lt_or_gt_of_ne apart with less | less
    · exact not_attracts_of_lt canonical canonical' (.inr ⟨level, less⟩) attracts attracts'
    · exact not_attracts_of_lt canonical' canonical (.inr ⟨level.symm, less⟩) attracts' attracts
  · rcases lt_or_gt_of_ne level with less | less
    · exact (not_attracts_of_lt canonical canonical' (.inl less) attracts attracts').elim
    · exact (not_attracts_of_lt canonical' canonical (.inl less) attracts' attracts).elim

end Binary

namespace Decimal

def value (decimal : Decimal) : ℚ := decimal.digits * 10 ^ decimal.exponent

variable {parts : Binary}

theorem zpow_mul_pow_toNat {base : ℚ} (apart : base ≠ 0) (exponent : Int) :
    base ^ exponent * base ^ (-exponent).toNat = base ^ exponent.toNat := by
  by_cases above : 0 ≤ exponent
  · have none : (-exponent).toNat = 0 := by omega
    rw [none, pow_zero, mul_one, ← zpow_natCast, Int.toNat_of_nonneg above]
  · have none : exponent.toNat = 0 := by omega
    rw [none, pow_zero, ← zpow_natCast, Int.toNat_of_nonneg (by omega), ← zpow_add₀ apart, add_neg_cancel,
      zpow_zero]

theorem reaches_iff {power : Int} : reaches parts power = true ↔ (10 : ℚ) ^ power ≤ parts.magnitude := by
  have factor : (0 : ℚ) < 10 ^ (-power).toNat * 2 ^ (-parts.exponent).toNat := by positivity
  have tens : (10 : ℚ) ^ power * (10 ^ (-power).toNat * 2 ^ (-parts.exponent).toNat) =
      10 ^ power.toNat * 2 ^ (-parts.exponent).toNat := by
    rw [← mul_assoc, zpow_mul_pow_toNat (by norm_num)]
  have twos : parts.magnitude * (10 ^ (-power).toNat * 2 ^ (-parts.exponent).toNat) =
      parts.significand * 2 ^ parts.exponent.toNat * 10 ^ (-power).toNat := by
    rw [Binary.magnitude, ← zpow_mul_pow_toNat (by norm_num : (2 : ℚ) ≠ 0) parts.exponent]
    ring
  rw [← mul_le_mul_iff_of_pos_right factor, tens, twos, reaches, decide_eq_true_eq]
  simp only [Nat.pow_eq]
  norm_cast

theorem Interval.nearest?_some {interval : Interval} {tie : Tie} {digits : Nat}
    (found : interval.nearest? tie = some digits) : digits ≠ 0 ∧ interval.holds digits = true := by
  unfold Interval.nearest? at found
  dsimp only at found
  generalize interval.value / interval.unit = floor at found
  have even : floor + floor % 2 = floor ∨ floor + floor % 2 = floor + 1 := by omega
  split at found
  · cases found
  · rename_i here _
    cases found
    simpa [and_comm] using here
  · rename_i next
    cases found
    exact ⟨Nat.succ_ne_zero floor, next⟩
  · rename_i here next
    have either : digits = floor ∨ digits = floor + 1 := by
      split at found
      · exact .inl (Option.some.inj found).symm
      · split at found
        · exact .inr (Option.some.inj found).symm
        · cases tie with
          | even =>
              cases found
              exact even
          | up => exact .inr (Option.some.inj found).symm
    rcases either with rfl | rfl
    · simpa [and_comm] using here
    · exact ⟨Nat.succ_ne_zero floor, next⟩

theorem Interval.nearest?_none {interval : Interval} {tie : Tie} (none : interval.nearest? tie = none) :
    ¬ (interval.holds (interval.value / interval.unit) = true ∧ interval.value / interval.unit ≠ 0) ∧
      ¬ interval.holds (interval.value / interval.unit + 1) = true := by
  unfold Interval.nearest? at none
  dsimp only at none
  generalize interval.value / interval.unit = floor at none ⊢
  split at none
  · rename_i here next
    rw [Bool.and_eq_false_iff] at here
    simpa [next, imp_iff_not_or] using here
  · cases none
  · cases none
  · split at none
    · cases none
    · split at none
      · cases none
      · cases tie <;> cases none

section Interval

variable (positive : 0 < parts.significand) (power : Int)
include positive

theorem Interval.of_scaled :
    ∃ factor : ℚ, 0 < factor ∧ ((Interval.of parts power).low : ℚ) = parts.least * factor ∧
      ((Interval.of parts power).value : ℚ) = parts.magnitude * factor ∧
      ((Interval.of parts power).high : ℚ) = parts.greatest * factor ∧
      ((Interval.of parts power).unit : ℚ) = 10 ^ power * factor := by
  have few : parts.slack ≤ 4 * parts.significand := by
    have := parts.slack_le
    omega
  have slack : (if parts.significand = Nat.pow 2 52 ∧ -1074 < parts.exponent then 1 else 2) = parts.slack := rfl
  have twos : parts.quarter * 2 ^ (2 - parts.exponent).toNat = 2 ^ (parts.exponent - 2).toNat := by
    rw [← zpow_mul_pow_toNat (by norm_num) (parts.exponent - 2), neg_sub, Binary.quarter]
  have tens : (10 : ℚ) ^ power * 10 ^ (-power).toNat = 10 ^ power.toNat := zpow_mul_pow_toNat (by norm_num) power
  refine ⟨2 ^ (2 - parts.exponent).toNat * 10 ^ (-power).toNat, by positivity, ?_, ?_, ?_, ?_⟩
  · rw [Interval.of]
    simp only [slack, Nat.pow_eq, Nat.cast_mul, Nat.cast_pow, Nat.cast_sub few, Nat.cast_ofNat, ← twos]
    rw [Binary.least]
    ring
  · rw [Interval.of, Binary.magnitude_eq_quarters]
    simp only [Nat.pow_eq, Nat.cast_mul, Nat.cast_pow, Nat.cast_ofNat, ← twos]
    ring
  · rw [Interval.of, Binary.greatest]
    simp only [Nat.pow_eq, Nat.cast_mul, Nat.cast_add, Nat.cast_pow, Nat.cast_ofNat, ← twos]
    ring
  · rw [Interval.of]
    simp only [Nat.pow_eq, Nat.cast_mul, Nat.cast_pow, Nat.cast_ofNat, ← tens]
    ring

theorem Interval.holds_iff (candidate : Nat) :
    (Interval.of parts power).holds candidate = true ↔ parts.Attracts (candidate * 10 ^ power) := by
  obtain ⟨factor, scale, low, -, high, unit⟩ := Interval.of_scaled positive power
  have point : ((candidate * (Interval.of parts power).unit : Nat) : ℚ) = candidate * 10 ^ power * factor := by
    rw [Nat.cast_mul, unit]
    ring
  have closed : (Interval.of parts power).closed = decide (parts.significand % 2 = 0) := rfl
  rw [Interval.holds, Binary.Attracts]
  by_cases even : parts.significand % 2 = 0
  · simp only [closed, even, decide_true, if_true, Bool.and_eq_true, decide_eq_true_eq]
    rw [← Nat.cast_le (α := ℚ), ← Nat.cast_le (α := ℚ), point, low, high, mul_le_mul_iff_of_pos_right scale,
      mul_le_mul_iff_of_pos_right scale]
  · simp only [closed, even, decide_false, if_false, Bool.and_eq_true, decide_eq_true_eq, Bool.false_eq_true]
    rw [← Nat.cast_lt (α := ℚ), ← Nat.cast_lt (α := ℚ), point, low, high, mul_lt_mul_iff_of_pos_right scale,
      mul_lt_mul_iff_of_pos_right scale]

theorem Interval.floor_bounds {floor : Nat}
    (grid : (Interval.of parts power).value / (Interval.of parts power).unit = floor) :
    (floor : ℚ) * 10 ^ power ≤ parts.magnitude ∧ parts.magnitude < ((floor + 1 : Nat) : ℚ) * 10 ^ power := by
  obtain ⟨factor, scale, -, value, -, unit⟩ := Interval.of_scaled positive power
  have whole : 0 < (Interval.of parts power).unit := Nat.mul_pos (Nat.pow_pos (by norm_num)) (Nat.pow_pos (by norm_num))
  have below := Nat.div_mul_le_self (Interval.of parts power).value (Interval.of parts power).unit
  have above := Nat.lt_mul_div_succ (Interval.of parts power).value whole
  rw [grid, ← Nat.cast_le (α := ℚ), Nat.cast_mul, unit, value, ← mul_assoc] at below
  rw [grid, ← Nat.cast_lt (α := ℚ), Nat.cast_mul, unit, value, mul_right_comm, mul_comm (10 ^ power)] at above
  exact ⟨le_of_mul_le_mul_right below scale, lt_of_mul_lt_mul_right above scale.le⟩

theorem Interval.nearest?_isSome (fine : (10 : ℚ) ^ power < parts.greatest - parts.least)
    (reached : (10 : ℚ) ^ power ≤ parts.magnitude) (tie : Tie) :
    ∃ digits, (Interval.of parts power).nearest? tie = some digits := by
  rw [← Option.ne_none_iff_exists']
  intro none
  obtain ⟨here, next⟩ := Interval.nearest?_none none
  generalize grid : (Interval.of parts power).value / (Interval.of parts power).unit = floor at here next
  obtain ⟨below, above⟩ := Interval.floor_bounds positive power grid
  have some : floor ≠ 0 := by
    rintro rfl
    rw [zero_add, Nat.cast_one, one_mul] at above
    exact absurd reached above.not_ge
  have low : (floor : ℚ) * 10 ^ power ≤ parts.least := by
    by_contra inside
    have attracts := Binary.attracts_of_inside (not_le.mp inside) (below.trans_lt parts.magnitude_lt_greatest)
    exact here ⟨(Interval.holds_iff positive power floor).mpr attracts, some⟩
  have high : parts.greatest ≤ ((floor + 1 : Nat) : ℚ) * 10 ^ power := by
    by_contra inside
    have attracts := Binary.attracts_of_inside (parts.least_lt_magnitude.trans above) (not_le.mp inside)
    exact next ((Interval.holds_iff positive power (floor + 1)).mpr attracts)
  rw [Nat.cast_succ, add_mul, one_mul] at high
  linarith

end Interval

/-! Where the search for digits begins, and that it ends. -/

theorem ten_pow_le_two_pow {tens twos : Nat} (few : 103 * tens ≤ 31 * twos) : 10 ^ tens ≤ 2 ^ twos := by
  have ratio : 10 ^ 31 ≤ 2 ^ 103 := by norm_num
  rw [← Nat.pow_le_pow_iff_left (by norm_num : 31 ≠ 0)]
  calc (10 ^ tens) ^ 31 = (10 ^ 31) ^ tens := by rw [← Nat.pow_mul, ← Nat.pow_mul, Nat.mul_comm]
    _ ≤ (2 ^ 103) ^ tens := Nat.pow_le_pow_left ratio tens
    _ = 2 ^ (103 * tens) := (Nat.pow_mul 2 103 tens).symm
    _ ≤ 2 ^ (31 * twos) := Nat.pow_le_pow_right (by norm_num) few
    _ = (2 ^ twos) ^ 31 := by rw [← Nat.pow_mul, Nat.mul_comm]

theorem two_pow_le_ten_pow {tens twos : Nat} (few : 28 * twos ≤ 93 * tens) : 2 ^ twos ≤ 10 ^ tens := by
  have ratio : 2 ^ 93 ≤ 10 ^ 28 := by norm_num
  rw [← Nat.pow_le_pow_iff_left (by norm_num : 28 ≠ 0)]
  calc (2 ^ twos) ^ 28 = 2 ^ (28 * twos) := by rw [← Nat.pow_mul, Nat.mul_comm]
    _ ≤ 2 ^ (93 * tens) := Nat.pow_le_pow_right (by norm_num) few
    _ = (2 ^ 93) ^ tens := Nat.pow_mul 2 93 tens
    _ ≤ (10 ^ 28) ^ tens := Nat.pow_le_pow_left ratio tens
    _ = (10 ^ tens) ^ 28 := by rw [← Nat.pow_mul, ← Nat.pow_mul, Nat.mul_comm]

theorem guess_reached {binary : Int} (lowest : -1074 ≤ binary) (highest : binary ≤ 1023) :
    (10 : ℚ) ^ (binary * 30103 / 100000 - 1) ≤ 2 ^ binary := by
  by_cases above : 0 ≤ binary * 30103 / 100000 - 1
  · obtain ⟨tens, ten⟩ := Int.eq_ofNat_of_zero_le above
    obtain ⟨twos, two⟩ := Int.eq_ofNat_of_zero_le (show 0 ≤ binary by omega)
    rw [ten, two, zpow_natCast, zpow_natCast]
    exact_mod_cast ten_pow_le_two_pow (show 103 * tens ≤ 31 * twos by omega)
  · obtain ⟨tens, ten⟩ := Int.eq_ofNat_of_zero_le (show 0 ≤ -(binary * 30103 / 100000 - 1) by omega)
    have fewer : 28 * (-binary).toNat ≤ 93 * tens := by omega
    have powers : (2 : ℚ) ^ (-binary).toNat ≤ 10 ^ tens := by exact_mod_cast two_pow_le_ten_pow fewer
    calc (10 : ℚ) ^ (binary * 30103 / 100000 - 1) = (10 ^ tens)⁻¹ := by
          rw [← zpow_natCast, ← zpow_neg]
          congr 1
          omega
      _ ≤ (2 ^ (-binary).toNat)⁻¹ := inv_anti₀ (by positivity) powers
      _ = 2 ^ (-((-binary).toNat : Int)) := by rw [zpow_neg, zpow_natCast]
      _ ≤ 2 ^ binary := zpow_le_zpow_right₀ (by norm_num) (by omega)

section Search

variable (canonical : Double.Canonical parts.significand parts.exponent) (finite : parts.exponent ≤ 971)
include canonical

theorem two_pow_le_magnitude : (2 : ℚ) ^ ((parts.significand.log2 : Int) + parts.exponent) ≤ parts.magnitude := by
  have leading : ((2 ^ parts.significand.log2 : Nat) : ℚ) ≤ parts.significand := by
    exact_mod_cast Nat.log2_self_le canonical.positive.ne'
  rw [Binary.magnitude, zpow_add₀ (by norm_num), zpow_natCast]
  push_cast at leading
  exact mul_le_mul_of_nonneg_right leading (zpow_pos (by norm_num) _).le

theorem spacing_lt {spacing : ℚ} (digits : spacing * 10 ^ 16 ≤ parts.magnitude) :
    spacing < parts.greatest - parts.least := by
  have bounded : (parts.significand : ℚ) + 1 ≤ 2 ^ 53 := by exact_mod_cast canonical.bounded
  have width : parts.greatest - parts.least = (2 + parts.slack) * parts.quarter := by
    rw [Binary.greatest, Binary.least]
    ring
  have enough : (4 * parts.significand : ℚ) < (2 + parts.slack) * 10 ^ 16 := by
    rw [Binary.slack]
    split
    · rename_i edge
      rw [edge.1]
      norm_num
    · push_cast
      linarith
  have room : parts.magnitude < (2 + parts.slack) * parts.quarter * 10 ^ 16 := by
    rw [Binary.magnitude_eq_quarters, mul_right_comm (2 + _)]
    exact mul_lt_mul_of_pos_right enough parts.quarter_pos
  rw [width]
  exact lt_of_mul_lt_mul_right (digits.trans_lt room) (by norm_num)

include finite

theorem leadingPower_reached : (10 : ℚ) ^ leadingPower parts ≤ parts.magnitude := by
  have least := canonical.least
  have bits : parts.significand.log2 < 53 := (Nat.log2_lt canonical.positive.ne').mpr canonical.bounded
  rw [leadingPower]
  split
  · rename_i reached
    exact reaches_iff.mp reached
  · split
    · rename_i reached
      exact reaches_iff.mp reached
    · exact (guess_reached (by omega) (by omega)).trans (two_pow_le_magnitude canonical)

theorem nearest?_of_last (tie : Tie) : ∃ digits, (Interval.of parts (leadingPower parts - 16)).nearest? tie = some digits := by
  have reached := leadingPower_reached canonical finite
  have spread : (10 : ℚ) ^ (leadingPower parts - 16) * 10 ^ 16 = 10 ^ leadingPower parts := by
    rw [← zpow_natCast, ← zpow_add₀ (by norm_num)]
    congr 1
    omega
  refine Interval.nearest?_isSome canonical.positive _ (spacing_lt canonical (spread.trans_le reached)) ?_ tie
  exact (zpow_le_zpow_right₀ (by norm_num) (by omega)).trans reached

end Search

theorem strip_value (fuel : Nat) (decimal : Decimal) : (strip fuel decimal).value = decimal.value := by
  induction fuel generalizing decimal with
  | zero => rfl
  | succ fuel ih =>
      obtain ⟨digits, exponent⟩ := decimal
      rw [strip]
      split
      · rename_i last
        have split : digits = digits / 10 * 10 := (Nat.div_mul_cancel (Nat.dvd_of_mod_eq_zero last.1)).symm
        rw [ih, value, value, zpow_add₀ (by norm_num)]
        conv_rhs => rw [split]
        push_cast
        ring
      · rfl

theorem search_attracts (positive : 0 < parts.significand) (leading : Int) (tie : Tie) {counts : List Nat}
    (found : ∃ count ∈ counts, ∃ digits, (Interval.of parts (leading - count)).nearest? tie = some digits) :
    parts.Attracts (search parts leading tie counts).value ∧ 0 < (search parts leading tie counts).value := by
  induction counts with
  | nil =>
      obtain ⟨count, none, -⟩ := found
      cases none
  | cons count finer ih =>
      rw [search]
      cases here : (Interval.of parts (leading - count)).nearest? tie with
      | none =>
          obtain ⟨other, member, digits, later⟩ := found
          rcases List.mem_cons.mp member with rfl | behind
          · cases here.symm.trans later
          · exact ih ⟨other, behind, digits, later⟩
      | some digits =>
          obtain ⟨some, holds⟩ := Interval.nearest?_some here
          have above : (0 : ℚ) < digits := by exact_mod_cast Nat.pos_of_ne_zero some
          dsimp only
          rw [strip_value, value]
          exact ⟨(Interval.holds_iff positive _ _).mp holds, mul_pos above (zpow_pos (by norm_num) _)⟩

theorem shortest_attracts (canonical : Double.Canonical parts.significand parts.exponent)
    (finite : parts.exponent ≤ 971) (tie : Tie) :
    parts.Attracts (shortest parts tie).value ∧ 0 < (shortest parts tie).value := by
  rw [shortest, if_neg canonical.positive.ne']
  refine search_attracts canonical.positive _ tie ⟨16, by decide, ?_⟩
  exact nearest?_of_last canonical finite tie

end Decimal

end Curator
