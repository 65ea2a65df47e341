import Curator.Proofs.Decimal.Comparison
/-!
Whole numbers as doubles. A number becomes a double nearest to it, so that a greater one never becomes a
lesser double. Up to `2 ^ 53` no two numbers become the same double; beyond it neighbours may.
-/

set_option autoImplicit false

namespace Curator.Double

open Float.Model Float.Model.UnpackedFloat

/-! The nearest double of a natural number. -/

structure Nearest (number mantissa : Nat) : Prop where
  above : 2 ^ 53 * number ≤ (2 * mantissa + 1) * 2 ^ number.log2
  below : 2 * mantissa * 2 ^ number.log2 ≤ 2 ^ 53 * number + 2 ^ number.log2

def order (number : Nat) : Int := number.log2 - 52

section Nearest

variable {number mantissa : Nat}

theorem Nearest.normal (nearest : Nearest number mantissa) (positive : 0 < number) :
    2 ^ 52 ≤ mantissa ∧ mantissa ≤ 2 ^ 53 := by
  have lower : 2 ^ number.log2 ≤ number := Nat.log2_self_le positive.ne'
  have upper : number < 2 ^ (number.log2 + 1) := Nat.lt_log2_self
  have unit : 0 < 2 ^ number.log2 := Nat.two_pow_pos _
  have least : 2 ^ 53 ≤ 2 * mantissa + 1 :=
    Nat.le_of_mul_le_mul_right ((Nat.mul_le_mul_left _ lower).trans nearest.above) unit
  have most : 2 * mantissa < 2 ^ 54 + 1 := by
    refine Nat.lt_of_mul_lt_mul_right (a := 2 ^ number.log2) (nearest.below.trans_lt ?_)
    rw [Nat.pow_succ] at upper
    omega
  omega

theorem Nearest.exact (nearest : Nearest number mantissa) (short : number.log2 ≤ 52) :
    mantissa = number * 2 ^ (52 - number.log2) := by
  have unit : 0 < 2 ^ number.log2 := Nat.two_pow_pos _
  have scale : 2 ^ 53 * number = 2 * (number * 2 ^ (52 - number.log2)) * 2 ^ number.log2 := by
    rw [Nat.mul_assoc 2, Nat.mul_assoc number, ← Nat.pow_add, Nat.sub_add_cancel short]
    omega
  have least : 2 * (number * 2 ^ (52 - number.log2)) ≤ 2 * mantissa + 1 :=
    Nat.le_of_mul_le_mul_right (scale ▸ nearest.above) unit
  have most : 2 * mantissa ≤ 2 * (number * 2 ^ (52 - number.log2)) + 1 := by
    refine Nat.le_of_mul_le_mul_right (nearest.below.trans_eq ?_) unit
    rw [scale, Nat.add_mul, Nat.one_mul]
  omega

theorem Nearest.lt_of_short (nearest : Nearest number mantissa) (short : number.log2 ≤ 52) : mantissa < 2 ^ 53 := by
  have bits : number * 2 ^ (52 - number.log2) < 2 ^ (number.log2 + 1) * 2 ^ (52 - number.log2) :=
    Nat.mul_lt_mul_of_pos_right Nat.lt_log2_self (Nat.two_pow_pos _)
  rwa [← Nat.pow_add, Nat.add_right_comm, Nat.add_sub_cancel' short, ← nearest.exact short] at bits

theorem Nearest.mono {other mantissa' : Nat} (nearest : Nearest number mantissa)
    (nearest' : Nearest other mantissa') (less : number < other) (level : number.log2 = other.log2) :
    mantissa ≤ mantissa' := by
  have below := nearest.below
  rw [level] at below
  have between : 2 * mantissa * 2 ^ other.log2 < (2 * mantissa' + 2) * 2 ^ other.log2 := by
    calc 2 * mantissa * 2 ^ other.log2 ≤ 2 ^ 53 * number + 2 ^ other.log2 := below
      _ < 2 ^ 53 * other + 2 ^ other.log2 := by omega
      _ ≤ (2 * mantissa' + 1) * 2 ^ other.log2 + 2 ^ other.log2 := Nat.add_le_add_right nearest'.above _
      _ = (2 * mantissa' + 2) * 2 ^ other.log2 := (Nat.succ_mul _ _).symm
  have room := Nat.lt_of_mul_lt_mul_right between
  omega

theorem roundWithAccuracy_whole (places : Nat) (positive : 0 < number) (enough : 52 ≤ number.log2 + places)
    (few : places ≤ 1074) :
    ∃ mantissa, Nearest number mantissa ∧
      ∃ canonical : Canonical (carried mantissa (order number)).1 (carried mantissa (order number)).2,
        roundWithAccuracy Format.binary64 .positive (number * 2 ^ places) (-places) .exact =
          .finite .positive (carried mantissa (order number)).1 (carried mantissa (order number)).2
            canonical.positive := by
  have log : (number * 2 ^ places).log2 = number.log2 + places := by
    simpa using log2_mul_two_pow_add positive (Nat.two_pow_pos places)
  have aim : target (number * 2 ^ places) (-places) = order number := by
    rw [target, log, order]
    omega
  have above : 0 < number * 2 ^ places := Nat.mul_pos positive (Nat.two_pow_pos places)
  obtain ⟨cut, moved⟩ : ∃ cut : Nat, number.log2 + places = cut + 52 := ⟨_, (Nat.sub_add_cancel enough).symm⟩
  have shift : (order number - -(places : Int)).toNat = cut := by
    rw [order]
    omega
  obtain ⟨least, most⟩ := roundedMantissa_near (number * 2 ^ places) cut
  have rounds : roundedOff (number * 2 ^ places) (-places) .exact =
      (ExtendedMantissa.ofMantissaAndAccuracy (number * 2 ^ places) .exact >>> cut).roundedMantissa := by
    rw [roundedOff, aim, shift]
  rw [← rounds] at least most
  have scale : 2 ^ number.log2 * 2 ^ places = 2 ^ 52 * 2 ^ cut := by
    rw [← Nat.pow_add, ← Nat.pow_add, moved, Nat.add_comm]
  refine ⟨roundedOff (number * 2 ^ places) (-places) .exact, ?_, ?_⟩
  · generalize roundedOff _ _ _ = mantissa at least most ⊢
    have unit : 0 < 2 ^ places := Nat.two_pow_pos places
    constructor
    · refine Nat.le_of_mul_le_mul_right ?_ unit
      calc 2 ^ 53 * number * 2 ^ places = 2 ^ 52 * (2 * (number * 2 ^ places)) := by ring
        _ ≤ 2 ^ 52 * ((2 * mantissa + 1) * 2 ^ cut) := Nat.mul_le_mul_left _ least
        _ = (2 * mantissa + 1) * 2 ^ number.log2 * 2 ^ places := by
          rw [Nat.mul_assoc, scale]
          ring
    · refine Nat.le_of_mul_le_mul_right ?_ unit
      calc 2 * mantissa * 2 ^ number.log2 * 2 ^ places = 2 ^ 52 * (2 * mantissa * 2 ^ cut) := by
            rw [Nat.mul_assoc, scale]
            ring
        _ ≤ 2 ^ 52 * (2 * (number * 2 ^ places) + 2 ^ cut) := Nat.mul_le_mul_left _ most
        _ = 2 ^ 53 * number * 2 ^ places + 2 ^ 52 * 2 ^ cut := by ring
        _ = (2 ^ 53 * number + 2 ^ number.log2) * 2 ^ places := by rw [← scale, Nat.add_mul]
  · rw [← aim]
    exact roundWithAccuracy_carried .positive .exact above (by omega) (by rw [aim, order]; omega)

end Nearest

theorem order_le {number : Nat} (bounded : number < 2 ^ 64) : order number ≤ 11 := by
  have bits : number.log2 < 64 := by
    by_cases zero : number = 0
    · subst zero
      decide
    · exact (Nat.log2_lt zero).mpr bounded
  rw [order]
  omega

theorem carried_le {number : Nat} (bounded : number < 2 ^ 64) (mantissa : Nat) :
    (carried mantissa (order number)).2 ≤ 971 := by
  have near := (carried_exponent mantissa (order number)).2
  have low := order_le bounded
  omega

theorem ofScientific_whole {number : Nat} (positive : 0 < number) :
    UnpackedFloat.ofScientific Format.binary64 number 0 =
      roundWithAccuracy Format.binary64 .positive (number * 2 ^ 53) (-53) .exact := by
  have width : (2 : Int) ^ Format.binary64.exponentBits = 2048 := rfl
  rw [UnpackedFloat.ofScientific, dif_neg positive.ne', width, if_neg (by omega), if_neg (by omega), if_pos le_rfl]
  have product : number <<< Format.binary64.mantissaBits * 10 ^ (0 : Int).toNat = number * 2 ^ 53 := by
    rw [Nat.shiftLeft_eq, Int.toNat_zero, Nat.pow_zero, Nat.mul_one]
    rfl
  rw [UnpackedFloat.mul, product]
  rfl

theorem normalize_whole {number : Nat} (positive : 0 < number) (short : number.log2 ≤ 52) :
    UnpackedFloat.normalize Format.binary64 number 0 .positive =
      roundWithAccuracy Format.binary64 .positive (number * 2 ^ (52 - number.log2)) (-(52 - number.log2 : Nat))
        .exact := by
  have above : compare (number : Int) 0 = .gt := by
    rw [Int.compare_eq_gt]
    exact_mod_cast positive
  have places : (0 - target number 0).toNat = 52 - number.log2 := by
    rw [target]
    omega
  rw [UnpackedFloat.normalize, above]
  change UnpackedFloat.round Format.binary64 .positive number 0 = _
  rw [UnpackedFloat.round, targetExponent_eq, decreaseExponent, places]
  dsimp only
  rw [Nat.shiftLeft_eq, Int.zero_sub]

theorem amounts_ofNat {number : Nat} (positive : 0 < number) (bounded : number < 2 ^ 64) :
    ∃ mantissa, Nearest number mantissa ∧
      Amounts (Float.ofNat number) (carried mantissa (order number)).1 (carried mantissa (order number)).2 := by
  change ∃ mantissa, Nearest number mantissa ∧ Amounts (Float.ofScientific number false 0) _ _
  rw [Float.ofScientific]
  split
  · rename_i small
    have short : number.log2 ≤ 52 := by
      have bits := (Nat.log2_lt positive.ne').mpr small.1
      omega
    have read : number.toUInt64.toFloat.toModel.unpack =
        (Float.Model.pack (UnpackedFloat.normalize Format.binary64 number.toUInt64.toNat 0 .positive)).unpack := rfl
    have same : number.toUInt64.toNat = number := Nat.mod_eq_of_lt bounded
    obtain ⟨mantissa, nearest, canonical, rounded⟩ :=
      roundWithAccuracy_whole (52 - number.log2) positive (by omega) (by omega)
    rw [same, normalize_whole positive short, rounded,
      unpack_pack_finite .positive canonical (carried_le bounded mantissa)] at read
    have exact := nearest.exact short
    have full : ¬ mantissa = 2 ^ 53 := (nearest.lt_of_short short).ne
    simp only [carried, if_neg full] at read
    have product : mantissa * 2 ^ 52 = number * 2 ^ (104 - number.log2) := by
      rw [exact, Nat.mul_assoc, ← Nat.pow_add]
      congr 2
      omega
    have moved : order number + -52 = -(104 - number.log2 : Nat) := by
      rw [order]
      omega
    obtain ⟨again, nearest', canonical', rounded'⟩ :=
      roundWithAccuracy_whole (104 - number.log2) positive (by omega) (by omega)
    refine ⟨again, nearest', amounts_of_finite canonical' (carried_le bounded again) ?_ (unpack_mul _ _)⟩
    rw [← rounded', read, unpack_one, ← product, ← moved]
    rfl
  · rename_i large
    have long : 53 ≤ number.log2 := (Nat.le_log2 positive.ne').mpr (by omega)
    obtain ⟨mantissa, nearest, canonical, rounded⟩ :=
      roundWithAccuracy_whole 53 positive (by omega) (by decide)
    refine ⟨mantissa, nearest, amounts_of_finite canonical (carried_le bounded mantissa) ?_ rfl⟩
    exact (ofScientific_whole positive).trans rounded

/-! The order of natural numbers and of their doubles. -/

def place (mantissa : Nat) (exponent : Int) : ℤ ×ₗ ℤ ×ₗ ℤ := toLex (1, toLex (exponent, mantissa))

theorem Amounts.rank_eq {number : Float} {mantissa : Nat} {exponent : Int}
    (amounts : Amounts number mantissa exponent) : rank number = place mantissa exponent := by
  obtain ⟨positive, parts⟩ := amounts
  rw [rank, parts]
  rfl

theorem place_le_iff {mantissa mantissa' : Nat} {exponent exponent' : Int} :
    place mantissa exponent ≤ place mantissa' exponent' ↔
      exponent < exponent' ∨ exponent = exponent' ∧ mantissa ≤ mantissa' := by
  simp [place, Prod.Lex.toLex_le_toLex]

section Order

variable {number other mantissa mantissa' : Nat}

theorem log2_mono (positive : 0 < number) (less : number ≤ other) : number.log2 ≤ other.log2 :=
  (Nat.le_log2 (by omega)).mpr ((Nat.log2_self_le positive.ne').trans less)

theorem Nearest.place_le (nearest : Nearest number mantissa) (nearest' : Nearest other mantissa')
    (positive : 0 < number) (less : number < other) :
    place (carried mantissa (order number)).1 (carried mantissa (order number)).2 ≤
      place (carried mantissa' (order other)).1 (carried mantissa' (order other)).2 := by
  have normal := nearest.normal positive
  have normal' := nearest'.normal (by omega)
  rw [place_le_iff]
  rcases (log2_mono positive less.le).lt_or_eq with lower | level
  · simp only [carried, order]
    split <;> split <;> dsimp only <;> omega
  · have closer := nearest.mono nearest' less level
    simp only [carried, order]
    split <;> split <;> dsimp only <;> omega

theorem Nearest.place_lt (nearest : Nearest number mantissa) (nearest' : Nearest other mantissa')
    (positive : 0 < number) (less : number < other) (small : other ≤ 2 ^ 53) :
    place (carried mantissa (order number)).1 (carried mantissa (order number)).2 <
      place (carried mantissa' (order other)).1 (carried mantissa' (order other)).2 := by
  have short : number.log2 ≤ 52 := Nat.lt_succ_iff.mp ((Nat.log2_lt positive.ne').mpr (less.trans_le small))
  have exact := nearest.exact short
  have kept : carried mantissa (order number) = (mantissa, order number) := if_neg (nearest.lt_of_short short).ne
  rw [← not_le, place_le_iff, kept]
  rcases (log2_mono positive less.le).lt_or_eq with lower | level
  · have further := (carried_exponent mantissa' (order other)).1
    simp only [order] at further ⊢
    omega
  · have more : mantissa < mantissa' := by
      rw [exact, nearest'.exact (level ▸ short), ← level]
      exact Nat.mul_lt_mul_of_pos_right less (Nat.two_pow_pos _)
    have kept' : carried mantissa' (order other) = (mantissa', order other) :=
      if_neg (nearest'.lt_of_short (level ▸ short)).ne
    rw [kept', order, order, level]
    dsimp only
    omega

end Order

theorem zero_lt_place (mantissa : Nat) (exponent : Int) : 0 < place mantissa exponent := by
  change toLex (0, toLex (0, 0)) < place mantissa exponent
  simp [place, Prod.Lex.toLex_lt_toLex]

theorem place_injective {mantissa mantissa' : Nat} {exponent exponent' : Int}
    (same : place mantissa exponent = place mantissa' exponent') : mantissa = mantissa' ∧ exponent = exponent' := by
  have below := place_le_iff.mp same.le
  have above := place_le_iff.mp same.ge
  omega

theorem eq_of_unpack {number other : Float} (same : number.toModel.unpack = other.toModel.unpack) : number = other := by
  rw [← Float.ofBits_toBits number, ← Float.ofBits_toBits other]
  change Float.ofModel (Float.Model.pack number.toModel.unpack) = Float.ofModel (Float.Model.pack other.toModel.unpack)
  rw [same]

theorem zero_lt_rank_ofNat {number : Nat} (positive : 0 < number) (bounded : number < 2 ^ 64) :
    0 < rank (Float.ofNat number) := by
  obtain ⟨mantissa, -, amounts⟩ := amounts_ofNat positive bounded
  exact amounts.rank_eq ▸ zero_lt_place _ _

theorem rank_ofNat_zero : rank (Float.ofNat 0) = 0 := rfl

theorem ofNat_lt_or_eq {number other : Nat} (bounded : other < 2 ^ 64) (less : number < other) :
    rank (Float.ofNat number) < rank (Float.ofNat other) ∨
      (Float.ofNat number = Float.ofNat other ∧ 2 ^ 53 < other) := by
  rcases Nat.eq_zero_or_pos number with rfl | positive
  · exact .inl (zero_lt_rank_ofNat less bounded)
  · obtain ⟨mantissa, nearest, amounts⟩ := amounts_ofNat positive (less.trans bounded)
    obtain ⟨mantissa', nearest', amounts'⟩ := amounts_ofNat (positive.trans less) bounded
    rw [amounts.rank_eq, amounts'.rank_eq]
    rcases (nearest.place_le nearest' positive less).lt_or_eq with ahead | level
    · exact .inl ahead
    · refine .inr ⟨?_, ?_⟩
      · obtain ⟨above, parts⟩ := amounts
        obtain ⟨above', parts'⟩ := amounts'
        obtain ⟨one, two⟩ := place_injective level
        refine eq_of_unpack ?_
        rw [parts, parts']
        congr
      · by_contra small
        exact (nearest.place_lt nearest' positive less (not_lt.mp small)).ne level

/-! Whole numbers. -/

theorem rankOf_neg (parts : UnpackedFloat) : rankOf parts.neg = -rankOf parts := by
  rcases parts with (_ | _) | _ | (_ | _) | ⟨_ | _, mantissa, exponent, positive⟩
  case finite.negative => exact Prod.ext rfl (Prod.ext (neg_neg exponent).symm (neg_neg (mantissa : ℤ)).symm)
  all_goals rfl

theorem ofInt_of_nonneg {number : Int} (above : 0 ≤ number) : Float.ofInt number = Float.ofNat number.natAbs := by
  cases number with
  | ofNat size => rfl
  | negSucc size => omega

theorem ofInt_of_neg {number : Int} (below : number < 0) : Float.ofInt number = (Float.ofNat number.natAbs).neg := by
  cases number with
  | ofNat size => exact absurd below (Int.natCast_nonneg size).not_gt
  | negSucc size => rfl

theorem rank_neg_ofNat {number : Nat} (positive : 0 < number) (bounded : number < 2 ^ 64) :
    rank (Float.ofNat number).neg = -rank (Float.ofNat number) := by
  obtain ⟨mantissa, nearest, above, parts⟩ := amounts_ofNat positive bounded
  have canonical : Canonical (carried mantissa (order number)).1 (carried mantissa (order number)).2 :=
    canonical_of_unpack parts
  have turned : (Float.ofNat number).neg.toModel.unpack = (Float.ofNat number).toModel.unpack.neg := by
    change (Float.Model.pack (Float.ofNat number).toModel.unpack.neg).unpack = _
    rw [parts]
    exact unpack_pack_finite .negative canonical (carried_le bounded mantissa)
  rw [rank, turned, rankOf_neg, rank]

theorem ofInt_lt_or_eq {first second : Int} (bounded : first.natAbs < 2 ^ 64) (bounded' : second.natAbs < 2 ^ 64)
    (less : first < second) :
    Float.ofInt first < Float.ofInt second ∨
      (Float.ofInt first = Float.ofInt second ∧ 2 ^ 53 < max first.natAbs second.natAbs) := by
  rw [lt_iff_rank_lt (ofInt_isNumber first) (ofInt_isNumber second), lt_max_iff]
  rcases lt_or_ge first 0 with below | above
  · rw [ofInt_of_neg below, rank_neg_ofNat (by omega) bounded]
    rcases lt_or_ge second 0 with below' | above'
    · rw [ofInt_of_neg below', rank_neg_ofNat (by omega) bounded', neg_lt_neg_iff]
      have smaller : second.natAbs < first.natAbs := by omega
      rcases ofNat_lt_or_eq bounded smaller with ahead | ⟨same, large⟩
      · exact .inl ahead
      · exact .inr ⟨congrArg Float.neg same.symm, .inl large⟩
    · have negative := neg_lt_zero.mpr (zero_lt_rank_ofNat (by omega) bounded)
      rw [ofInt_of_nonneg above']
      rcases Nat.eq_zero_or_pos second.natAbs with zero | positive
      · rw [zero, rank_ofNat_zero]
        exact .inl negative
      · exact .inl (negative.trans (zero_lt_rank_ofNat positive bounded'))
  · rw [ofInt_of_nonneg above, ofInt_of_nonneg (above.trans less.le)]
    have smaller : first.natAbs < second.natAbs := by omega
    rcases ofNat_lt_or_eq bounded' smaller with ahead | ⟨same, large⟩
    · exact .inl ahead
    · exact .inr ⟨same, .inr large⟩

end Curator.Double
