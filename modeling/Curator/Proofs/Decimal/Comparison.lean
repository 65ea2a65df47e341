import Curator.Proofs.Decimal.Nonnegative
/-!
The order of doubles. Each double but NaN has a rank, and comes before another when its rank is less. No
finite double is NaN, nor is what a whole number becomes.
-/

set_option autoImplicit false

namespace Curator.Double

open Float.Model Float.Model.UnpackedFloat

/-! Ranks. -/

def rankOf : UnpackedFloat → ℤ ×ₗ ℤ ×ₗ ℤ
  | .infinity .negative => toLex (-2, toLex (0, 0))
  | .finite .negative mantissa exponent _ => toLex (-1, toLex (-exponent, -mantissa))
  | .zero _ | .notANumber => toLex (0, toLex (0, 0))
  | .finite .positive mantissa exponent _ => toLex (1, toLex (exponent, mantissa))
  | .infinity .positive => toLex (2, toLex (0, 0))

def rank (number : Float) : ℤ ×ₗ ℤ ×ₗ ℤ := rankOf number.toModel.unpack

theorem compare_eq_lt_iff {first second : UnpackedFloat} (isNumber : first.isNaN = false)
    (isNumber' : second.isNaN = false) :
    UnpackedFloat.compare first second = some .lt ↔ rankOf first < rankOf second := by
  cases first with
  | notANumber => cases isNumber
  | zero sign =>
      cases second with
      | notANumber => cases isNumber'
      | zero sign' => simp [UnpackedFloat.compare, rankOf]
      | infinity sign' => cases sign' <;> simp [UnpackedFloat.compare, rankOf, Prod.Lex.toLex_lt_toLex]
      | finite sign' mantissa exponent positive =>
          cases sign' <;> simp [UnpackedFloat.compare, rankOf, Prod.Lex.toLex_lt_toLex]
  | infinity sign =>
      cases second with
      | notANumber => cases isNumber'
      | zero sign' => cases sign <;> simp [UnpackedFloat.compare, rankOf, Prod.Lex.toLex_lt_toLex]
      | infinity sign' =>
          cases sign <;> cases sign' <;> decide
      | finite sign' mantissa exponent positive =>
          cases sign <;> cases sign' <;> simp [UnpackedFloat.compare, rankOf, Prod.Lex.toLex_lt_toLex]
  | finite sign mantissa exponent positive =>
      cases second with
      | notANumber => cases isNumber'
      | zero sign' => cases sign <;> simp [UnpackedFloat.compare, rankOf, Prod.Lex.toLex_lt_toLex]
      | infinity sign' =>
          cases sign <;> cases sign' <;> simp [UnpackedFloat.compare, rankOf, Prod.Lex.toLex_lt_toLex]
      | finite sign' mantissa' exponent' positive' =>
          cases sign <;> cases sign' <;>
            simp [UnpackedFloat.compare, rankOf, Prod.Lex.toLex_lt_toLex, Ordering.then_eq_lt, Ordering.then_eq_gt,
              compare_lt_iff_lt, compare_gt_iff_gt]

theorem lt_iff_rank_lt {number other : Float} (isNumber : number.isNaN = false) (isNumber' : other.isNaN = false) :
    number < other ↔ rank number < rank other := by
  rw [lt_iff, compare_eq_lt_iff isNumber isNumber', rank, rank]

theorem isNumber_of_isFinite {number : Float} (finite : number.isFinite = true) : number.isNaN = false := by
  change number.toModel.unpack.isFinite = true at finite
  change number.toModel.unpack.isNaN = false
  cases parts : number.toModel.unpack with
  | notANumber => simp [parts, UnpackedFloat.isFinite] at finite
  | zero | infinity | finite => rfl

/-! Comparisons the other way round, and up to equality. -/

theorem compare_swap (first second : UnpackedFloat) :
    UnpackedFloat.compare second first = (UnpackedFloat.compare first second).map Ordering.swap := by
  cases first with
  | notANumber => cases second <;> rfl
  | zero sign =>
      cases second with
      | notANumber | zero => rfl
      | infinity sign' => cases sign' <;> rfl
      | finite sign' => cases sign' <;> rfl
  | infinity sign =>
      cases second with
      | notANumber => rfl
      | zero => cases sign <;> rfl
      | infinity sign' => cases sign <;> cases sign' <;> rfl
      | finite sign' => cases sign <;> cases sign' <;> rfl
  | finite sign mantissa exponent positive =>
      cases second with
      | notANumber => rfl
      | zero => cases sign <;> rfl
      | infinity sign' => cases sign <;> cases sign' <;> rfl
      | finite sign' mantissa' exponent' positive' =>
          have turned : (compare exponent' exponent).then (compare mantissa' mantissa) =
              ((compare exponent exponent').then (compare mantissa mantissa')).swap := by
            rw [Ordering.swap_then, Int.compare_swap, Nat.compare_swap]
          cases sign <;> cases sign' <;> simp [UnpackedFloat.compare, turned]

theorem lt_asymm {number other : Float} (less : number < other) : ¬ other < number := by
  rw [lt_iff, compare_swap, lt_iff.mp less]
  simp

theorem isNaN_of_compare {first second : UnpackedFloat} (incomparable : UnpackedFloat.compare first second = none) :
    first.isNaN = true ∨ second.isNaN = true := by
  cases first with
  | notANumber => exact .inl rfl
  | zero sign =>
      cases second with
      | notANumber => exact .inr rfl
      | zero => cases incomparable
      | infinity sign' => cases sign' <;> cases incomparable
      | finite sign' => cases sign' <;> cases incomparable
  | infinity sign =>
      cases second with
      | notANumber => exact .inr rfl
      | zero => cases sign <;> cases incomparable
      | infinity sign' => cases incomparable
      | finite sign' => cases sign <;> cases incomparable
  | finite sign =>
      cases second with
      | notANumber => exact .inr rfl
      | zero => cases sign <;> cases incomparable
      | infinity sign' => cases sign' <;> cases incomparable
      | finite sign' => cases sign <;> cases sign' <;> cases incomparable

section Numbers

variable {number other : Float} (isNumber : number.isNaN = false) (isNumber' : other.isNaN = false)
include isNumber isNumber'

theorem exists_compare :
    ∃ order, UnpackedFloat.compare number.toModel.unpack other.toModel.unpack = some order := by
  cases compared : UnpackedFloat.compare number.toModel.unpack other.toModel.unpack with
  | some order => exact ⟨order, rfl⟩
  | none =>
      change number.toModel.unpack.isNaN = false at isNumber
      change other.toModel.unpack.isNaN = false at isNumber'
      rcases isNaN_of_compare compared with isNaN | isNaN
      · cases isNumber.symm.trans isNaN
      · cases isNumber'.symm.trans isNaN

theorem le_iff_not_lt : number ≤ other ↔ ¬ other < number := by
  obtain ⟨order, compared⟩ := exists_compare isNumber isNumber'
  rw [lt_iff, compare_swap number.toModel.unpack, compared]
  change decide (UnpackedFloat.le number.toModel.unpack other.toModel.unpack = true) = true ↔ _
  rw [UnpackedFloat.le, compared]
  cases order <;> simp

theorem beq_iff_rank_eq : (number == other) = true ↔ rank number = rank other := by
  have unordered : (number == other) = true ↔ ¬ number < other ∧ ¬ other < number := by
    obtain ⟨order, compared⟩ := exists_compare isNumber isNumber'
    rw [lt_iff, lt_iff, compare_swap number.toModel.unpack other.toModel.unpack, compared]
    change UnpackedFloat.beq number.toModel.unpack other.toModel.unpack = true ↔ _
    rw [UnpackedFloat.beq, compared]
    cases order <;> simp
  rw [unordered, lt_iff_rank_lt isNumber isNumber', lt_iff_rank_lt isNumber' isNumber, not_lt, not_lt, and_comm,
    ← le_antisymm_iff]

end Numbers

theorem isNumber_of_beq {number other : Float} (equal : (number == other) = true) : other.isNaN = false := by
  change UnpackedFloat.beq number.toModel.unpack other.toModel.unpack = true at equal
  change other.toModel.unpack.isNaN = false
  cases parts : other.toModel.unpack with
  | notANumber =>
      rw [parts, UnpackedFloat.beq] at equal
      cases own : number.toModel.unpack <;> simp [own, UnpackedFloat.compare] at equal
  | zero | infinity | finite => rfl

/-! Whole numbers. -/

theorem roundWithAccuracy_isNumber (sign : Sign) (mantissa : Nat) (exponent : Int) (accuracy : Accuracy) :
    (roundWithAccuracy Format.binary64 sign mantissa exponent accuracy).isNaN = false := by
  rw [roundWithAccuracy]
  dsimp only
  split <;> rfl

theorem normalize_isNumber (mantissa exponent : Int) (sign : Sign) :
    (UnpackedFloat.normalize Format.binary64 mantissa exponent sign).isNaN = false := by
  rw [UnpackedFloat.normalize]
  split
  · exact roundWithAccuracy_isNumber _ _ _ _
  · rfl
  · exact roundWithAccuracy_isNumber _ _ _ _

theorem unpack_components_isNumber (sign : Sign) (stored : BitVec 11) (fraction : BitVec 52)
    (below : stored.toNat < 2047) :
    (unpack Format.binary64 (packComponents Format.binary64 sign stored fraction)).isNaN = false := by
  have bounded : stored ≠ -1#11 := by
    rintro rfl
    exact absurd below (by decide)
  rw [UnpackedFloat.unpack]
  simp only [unpackMantissa_packComponents, unpackExponent_packComponents, unpackSign_packComponents]
  rw [if_neg bounded]
  split
  · split <;> rfl
  · rfl

theorem unpack_pack_isNumber {number : UnpackedFloat} (isNumber : number.isNaN = false) :
    (Float.Model.pack number).unpack.isNaN = false := by
  cases number with
  | notANumber => cases isNumber
  | zero sign =>
      rw [unpack_pack_zero]
      rfl
  | infinity sign =>
      rw [unpack_pack_infinity]
      rfl
  | finite sign mantissa exponent positive =>
      rw [unpack_pack, UnpackedFloat.pack]
      dsimp only
      split
      · exact congrArg UnpackedFloat.isNaN (unpack_pack_infinity sign)
      · rename_i inside
        have width : (2 : Nat) ^ Format.binary64.exponentBits = 2048 := rfl
        split
        · refine unpack_components_isNumber sign _ _ ?_
          rw [BitVec.toNat_ofNat]
          exact lt_of_le_of_lt (Nat.mod_le _ _) (by omega)
        · exact unpack_components_isNumber sign _ _ (by decide)

theorem mul_finite_isNumber {number : UnpackedFloat} (isNumber : number.isNaN = false) (sign : Sign)
    {mantissa : Nat} (exponent : Int) (positive : 0 < mantissa) :
    (UnpackedFloat.mul Format.binary64 number (.finite sign mantissa exponent positive)).isNaN = false := by
  cases number with
  | notANumber => cases isNumber
  | zero | infinity => rfl
  | finite => exact roundWithAccuracy_isNumber _ _ _ _

theorem ofScientific_isNumber (mantissa : Nat) (exponent : Int) :
    (UnpackedFloat.ofScientific Format.binary64 mantissa exponent).isNaN = false := by
  rw [UnpackedFloat.ofScientific]
  split
  · rfl
  · split
    · rfl
    · split
      · rfl
      · split <;> exact roundWithAccuracy_isNumber _ _ _ _

theorem unpack_mul (number other : Float) :
    (number * other).toModel.unpack =
      (Float.Model.pack (UnpackedFloat.mul Format.binary64 number.toModel.unpack other.toModel.unpack)).unpack := rfl

theorem unpack_one : Float.exactlyRepresentablePowersOfTen[0].toModel.unpack =
    .finite .positive (2 ^ 52) (-52) (by decide) := rfl

theorem ofNat_isNumber (number : Nat) : (Float.ofNat number).isNaN = false := by
  change (Float.ofScientific number false 0).isNaN = false
  rw [Float.ofScientific]
  split
  · refine unpack_pack_isNumber ?_
    change (UnpackedFloat.mul _ _ Float.exactlyRepresentablePowersOfTen[0].toModel.unpack).isNaN = false
    rw [unpack_one]
    exact mul_finite_isNumber (unpack_pack_isNumber (normalize_isNumber _ _ _)) _ _ _
  · exact unpack_pack_isNumber (ofScientific_isNumber _ _)

theorem neg_isNumber {number : Float} (isNumber : number.isNaN = false) : number.neg.isNaN = false := by
  refine unpack_pack_isNumber ?_
  change number.toModel.unpack.isNaN = false at isNumber
  cases parts : number.toModel.unpack with
  | notANumber => simp [parts, UnpackedFloat.isNaN] at isNumber
  | zero | infinity | finite => rfl

theorem ofInt_isNumber (number : Int) : (Float.ofInt number).isNaN = false := by
  cases number with
  | ofNat size => exact ofNat_isNumber size
  | negSucc size => exact neg_isNumber (ofNat_isNumber size.succ)

end Curator.Double
