import Curator.Proofs.Decimal.Arithmetic
/-!
The doubles that are not negative, told apart by their size: zero, a mantissa over a power of two, or
infinite. What sums and quotients of them are.
-/

set_option autoImplicit false

namespace Curator.Double

open Float.Model Float.Model.UnpackedFloat

def IsZero (number : Float) : Prop := ∃ sign, number.toModel.unpack = .zero sign

def Amounts (number : Float) (mantissa : Nat) (exponent : Int) : Prop :=
  ∃ positive, number.toModel.unpack = .finite .positive mantissa exponent positive

def IsInfinite (number : Float) : Prop := number.toModel.unpack = .infinity .positive

def Nonnegative (number : Float) : Prop := IsZero number ∨ ∃ mantissa exponent, Amounts number mantissa exponent

variable {number other : Float} {mantissa mantissa' : Nat} {exponent exponent' : Int}

theorem unpack_zero : (0.0 : Float).toModel.unpack = .zero .positive := rfl

theorem lt_iff : number < other ↔ UnpackedFloat.compare number.toModel.unpack other.toModel.unpack = some .lt := by
  change decide (UnpackedFloat.lt number.toModel.unpack other.toModel.unpack = true) = true ↔ _
  simp [UnpackedFloat.lt]

theorem zero_lt_iff : 0.0 < number ↔ (∃ mantissa exponent, Amounts number mantissa exponent) ∨ IsInfinite number := by
  rw [lt_iff, unpack_zero]
  simp only [Amounts, IsInfinite]
  cases number.toModel.unpack with
  | zero sign => simp [UnpackedFloat.compare]
  | notANumber => simp [UnpackedFloat.compare]
  | infinity sign => cases sign <;> simp [UnpackedFloat.compare]
  | finite sign mantissa exponent positive => cases sign <;> simp [UnpackedFloat.compare, positive]

theorem Amounts.pos (amounts : Amounts number mantissa exponent) : 0.0 < number :=
  zero_lt_iff.mpr (.inl ⟨mantissa, exponent, amounts⟩)

theorem IsInfinite.pos (infinite : IsInfinite number) : 0.0 < number := zero_lt_iff.mpr (.inr infinite)

theorem nonnegative_iff : Nonnegative number ↔ number.isFinite = true ∧ ¬ number < 0.0 := by
  change _ ↔ number.toModel.unpack.isFinite = true ∧ _
  rw [lt_iff, unpack_zero]
  simp only [Nonnegative, IsZero, Amounts]
  cases number.toModel.unpack with
  | zero sign => simp [UnpackedFloat.compare, UnpackedFloat.isFinite]
  | notANumber => simp [UnpackedFloat.isFinite]
  | infinity sign => simp [UnpackedFloat.isFinite]
  | finite sign mantissa exponent positive =>
      cases sign <;> simp [UnpackedFloat.compare, UnpackedFloat.isFinite, positive]

theorem IsZero.beq_zero (zero : IsZero number) : (number == 0.0) = true := by
  obtain ⟨sign, parts⟩ := zero
  change UnpackedFloat.beq number.toModel.unpack (0.0 : Float).toModel.unpack = true
  rw [parts, unpack_zero]
  rfl

theorem beq_zero_of_pos (positive : 0.0 < number) : (number == 0.0) = false := by
  change UnpackedFloat.beq number.toModel.unpack (0.0 : Float).toModel.unpack = false
  rw [unpack_zero]
  rcases zero_lt_iff.mp positive with ⟨mantissa, exponent, above, parts⟩ | parts
  · rw [parts]
    rfl
  · rw [parts]
    rfl

theorem IsZero.not_pos (zero : IsZero number) : ¬ 0.0 < number := by
  obtain ⟨sign, parts⟩ := zero
  rw [lt_iff, unpack_zero, parts]
  simp [UnpackedFloat.compare]

theorem IsInfinite.not_finite (infinite : IsInfinite number) : number.isFinite = false := by
  change number.toModel.unpack.isFinite = false
  rw [infinite]
  rfl

theorem Amounts.canonical (amounts : Amounts number mantissa exponent) : Canonical mantissa exponent := by
  obtain ⟨positive, parts⟩ := amounts
  exact canonical_of_unpack parts

theorem amounts_of_finite {parts : UnpackedFloat} (canonical : Canonical mantissa exponent)
    (greatest : exponent ≤ 971) (computed : parts = .finite .positive mantissa exponent canonical.positive)
    (packed : number.toModel.unpack = (Float.Model.pack parts).unpack) : Amounts number mantissa exponent := by
  refine ⟨canonical.positive, ?_⟩
  rw [packed, computed, unpack_pack_finite .positive canonical greatest]

theorem amounts_or_infinite {parts : UnpackedFloat} (canonical : Canonical mantissa exponent)
    (computed : parts = .finite .positive mantissa exponent canonical.positive)
    (packed : number.toModel.unpack = (Float.Model.pack parts).unpack) :
    Amounts number mantissa exponent ∨ IsInfinite number := by
  by_cases greatest : exponent ≤ 971
  · exact .inl (amounts_of_finite canonical greatest computed packed)
  · refine .inr ?_
    rw [IsInfinite, packed, computed, unpack_pack_overflow .positive canonical (by omega)]

theorem Amounts.of_packed (amounts : Amounts number mantissa exponent)
    (packed : other.toModel.unpack = (Float.Model.pack number.toModel.unpack).unpack) :
    Amounts other mantissa exponent := by
  have same : Float.Model.pack number.toModel.unpack = number.toModel :=
    congrArg Float.toModel (Float.ofBits_toBits number)
  rwa [Amounts, packed, same]

section Sum

theorem unpack_add (number other : Float) :
    (number + other).toModel.unpack =
      (Float.Model.pack (UnpackedFloat.add Format.binary64 number.toModel.unpack other.toModel.unpack)).unpack := rfl

theorem IsZero.add (zero : IsZero number) (zero' : IsZero other) : IsZero (number + other) := by
  obtain ⟨sign, parts⟩ := zero
  obtain ⟨sign', parts'⟩ := zero'
  rw [IsZero, unpack_add, parts, parts']
  cases sign <;> cases sign' <;> exact ⟨_, unpack_pack_zero _⟩

theorem IsZero.add_amounts (zero : IsZero number) (amounts : Amounts other mantissa exponent) :
    Amounts (number + other) mantissa exponent := by
  refine amounts.of_packed ?_
  obtain ⟨sign, parts⟩ := zero
  obtain ⟨positive, parts'⟩ := amounts
  rw [unpack_add, parts, parts']
  rfl

theorem Amounts.add_zero (amounts : Amounts number mantissa exponent) (zero : IsZero other) :
    Amounts (number + other) mantissa exponent := by
  refine amounts.of_packed ?_
  obtain ⟨sign, parts⟩ := zero
  obtain ⟨positive, parts'⟩ := amounts
  rw [unpack_add, parts, parts']
  rfl

theorem Amounts.add_absorbs (amounts : Amounts number mantissa exponent)
    (amounts' : Amounts other mantissa' exponent') (far : exponent' + 54 ≤ exponent) :
    Amounts (number + other) mantissa exponent := by
  refine amounts.of_packed ?_
  have absorbed := Double.add_absorbs amounts.canonical amounts'.canonical far
  obtain ⟨positive, parts⟩ := amounts
  obtain ⟨positive', parts'⟩ := amounts'
  rw [unpack_add, parts, parts', absorbed]

theorem Amounts.add (amounts : Amounts number mantissa exponent) (amounts' : Amounts other mantissa' exponent') :
    (∃ sum power, Amounts (number + other) sum power ∧ power ≤ max exponent exponent' + 2) ∨
      IsInfinite (number + other) := by
  obtain ⟨sum, power, canonical, computed, near⟩ := add_canonical amounts.canonical amounts'.canonical
  obtain ⟨positive, parts⟩ := amounts
  obtain ⟨positive', parts'⟩ := amounts'
  have packed := unpack_add number other
  rw [parts, parts'] at packed
  rcases amounts_or_infinite canonical computed packed with summed | infinite
  · exact .inl ⟨sum, power, summed, near⟩
  · exact .inr infinite

theorem IsInfinite.add (infinite : IsInfinite number) (finite : Nonnegative other) :
    IsInfinite (number + other) := by
  have sum : UnpackedFloat.add Format.binary64 number.toModel.unpack other.toModel.unpack = .infinity .positive := by
    rw [infinite]
    rcases finite with ⟨sign, parts⟩ | ⟨mantissa, exponent, positive, parts⟩
    · rw [parts]
      rfl
    · rw [parts]
      rfl
  rw [IsInfinite, unpack_add, sum, unpack_pack_infinity]

end Sum

section Quotient

theorem unpack_div (number other : Float) :
    (number / other).toModel.unpack =
      (Float.Model.pack (UnpackedFloat.div Format.binary64 number.toModel.unpack other.toModel.unpack)).unpack := rfl

theorem Amounts.div_pos (amounts : Amounts number mantissa exponent) (amounts' : Amounts other mantissa' exponent')
    (near : exponent' ≤ exponent + 55) : 0.0 < number / other := by
  obtain ⟨share, power, canonical, computed⟩ := div_canonical amounts.canonical amounts'.canonical near
  obtain ⟨positive, parts⟩ := amounts
  obtain ⟨positive', parts'⟩ := amounts'
  have packed := unpack_div number other
  rw [parts, parts'] at packed
  rcases amounts_or_infinite canonical computed packed with shared | infinite
  · exact shared.pos
  · exact infinite.pos

theorem Nonnegative.div_infinite (finite : Nonnegative number) (infinite : IsInfinite other) :
    IsZero (number / other) := by
  obtain ⟨sign, quotient⟩ : ∃ sign,
      UnpackedFloat.div Format.binary64 number.toModel.unpack other.toModel.unpack = .zero sign := by
    rw [infinite]
    rcases finite with ⟨sign, parts⟩ | ⟨mantissa, exponent, positive, parts⟩
    · rw [parts]
      exact ⟨_, rfl⟩
    · rw [parts]
      exact ⟨_, rfl⟩
  refine ⟨sign, ?_⟩
  rw [unpack_div, quotient, unpack_pack_zero]

end Quotient

end Curator.Double
