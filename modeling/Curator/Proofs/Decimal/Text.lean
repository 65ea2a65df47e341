import Curator.Proofs.Decimal.Binary
import Curator.Proofs.Decimal.Comparison
import Curator.Proofs.Decimal.Layout
/-!
Finite doubles and their texts: a double is known by its parts, its parts by its number and its sign, and
both by its text. No whole number has the text of a double.
-/

set_option autoImplicit false

namespace Curator

namespace Binary

structure Finite (parts : Binary) : Prop where
  bounded : parts.significand < 2 ^ 53
  least : -1074 ≤ parts.exponent
  greatest : parts.exponent ≤ 971
  normal : 2 ^ 52 ≤ parts.significand ∨ parts.exponent = -1074

open Float.Model Float.Model.UnpackedFloat in
theorem stored_ne_of_isFinite {number : Float} (finite : number.isFinite = true) :
    number.toBits.toNat / 2 ^ 52 % 2 ^ 11 ≠ 2047 := by
  intro full
  have stored : @unpackExponent Format.binary64 number.toModel.toBits.toBitVec = -1#11 := by
    refine BitVec.eq_of_toNat_eq ?_
    rw [unpackExponent, BitVec.toNat_cast, BitVec.extractLsb_toNat, Nat.shiftRight_eq_div_pow]
    exact full
  change number.toModel.unpack.isFinite = true at finite
  rw [Float.Model.unpack, UnpackedFloat.unpack] at finite
  dsimp only at finite
  rw [if_pos stored] at finite
  split at finite <;> cases finite

theorem finite_ofFloat {number : Float} (finite : number.isFinite = true) : (ofFloat number).Finite := by
  have stored := stored_ne_of_isFinite finite
  unfold ofFloat
  simp only [Nat.pow_eq, Nat.reducePow] at stored ⊢
  generalize number.toBits.toNat = bits at stored
  split <;> constructor <;> simp only [Int.ofNat_eq_natCast, or_true] <;> omega

theorem eq_of_ofFloat {number other : Float} (same : ofFloat number = ofFloat other) : number = other := by
  have bits : number.toBits.toNat = other.toBits.toNat := by
    have size := number.toBits.toNat_lt
    have size' := other.toBits.toNat_lt
    unfold ofFloat at same
    simp only [Nat.pow_eq, Nat.reducePow] at same
    generalize number.toBits.toNat = bits at size same
    generalize other.toBits.toNat = bits' at size' same
    split at same <;> split at same <;>
      simp only [mk.injEq, decide_eq_decide, Int.ofNat_eq_natCast] at same <;> omega
  rw [← Float.ofBits_toBits number, ← Float.ofBits_toBits other, UInt64.toNat_inj.mp bits]

section Value

variable {parts other : Binary}

theorem Finite.canonical (finite : parts.Finite) (positive : 0 < parts.significand) :
    Double.Canonical parts.significand parts.exponent :=
  ⟨positive, finite.bounded, finite.least, finite.normal⟩

theorem Finite.exponent_of_zero (finite : parts.Finite) (zero : parts.significand = 0) : parts.exponent = -1074 :=
  finite.normal.resolve_left (by omega)

theorem abs_value (parts : Binary) : |parts.value| = parts.magnitude := by
  have scale : (0 : ℚ) < 2 ^ parts.exponent := zpow_pos (by norm_num) _
  have size : |(signed parts.negative parts.significand : ℚ)| = parts.significand := by
    rw [← Int.cast_abs, Int.abs_eq_natAbs, natAbs_signed, Int.cast_natCast]
  rw [value, abs_mul, abs_of_pos scale, size, magnitude]

theorem magnitude_eq_zero_iff : parts.magnitude = 0 ↔ parts.significand = 0 := by
  rw [magnitude, mul_eq_zero, or_iff_left (zpow_pos (by norm_num) _).ne', Nat.cast_eq_zero]

theorem value_eq_zero_iff : parts.value = 0 ↔ parts.significand = 0 := by
  rw [← abs_eq_zero, abs_value, magnitude_eq_zero_iff]

theorem negative_iff_value_neg (apart : parts.significand ≠ 0) : parts.negative = true ↔ parts.value < 0 := by
  have scale : (0 : ℚ) < 2 ^ parts.exponent := zpow_pos (by norm_num) _
  rw [value, Rat.mul_neg_iff_of_pos_right scale]
  cases parts.negative with
  | true => simpa [signed] using Nat.pos_of_ne_zero apart
  | false => simp [signed]

theorem Finite.eq_of_point (finite : parts.Finite) (finite' : other.Finite) (sign : parts.negative = other.negative)
    (zero : parts.significand = 0 ↔ other.significand = 0)
    (shared : 0 < parts.significand → 0 < other.significand → ∃ point, parts.Attracts point ∧ other.Attracts point) :
    parts = other := by
  have same : parts.significand = other.significand ∧ parts.exponent = other.exponent := by
    by_cases none : parts.significand = 0
    · have none' := zero.mp none
      exact ⟨none.trans none'.symm, (finite.exponent_of_zero none).trans (finite'.exponent_of_zero none').symm⟩
    · have some := Nat.pos_of_ne_zero none
      have some' := Nat.pos_of_ne_zero (mt zero.mpr none)
      obtain ⟨point, attracts, attracts'⟩ := shared some some'
      exact eq_of_attracts (finite.canonical some) (finite'.canonical some') attracts attracts'
  cases parts
  cases other
  rw [mk.injEq]
  exact ⟨sign, same⟩

theorem Finite.eq_of_value (finite : parts.Finite) (finite' : other.Finite) (worth : parts.value = other.value)
    (zeros : parts.significand = 0 → other.significand = 0 → parts.negative = other.negative) : parts = other := by
  have zero : parts.significand = 0 ↔ other.significand = 0 := by
    rw [← value_eq_zero_iff, ← value_eq_zero_iff, worth]
  have size : parts.magnitude = other.magnitude := by rw [← abs_value, ← abs_value, worth]
  refine finite.eq_of_point finite' ?_ zero fun _ _ => ⟨parts.magnitude, ?_, ?_⟩
  · by_cases none : parts.significand = 0
    · exact zeros none (zero.mp none)
    · rw [Bool.eq_iff_iff, negative_iff_value_neg none, negative_iff_value_neg (mt zero.mpr none), worth]
  · exact attracts_of_inside parts.least_lt_magnitude parts.magnitude_lt_greatest
  · rw [size]
    exact attracts_of_inside other.least_lt_magnitude other.magnitude_lt_greatest

end Value

end Binary

namespace Decimal

section Text

variable {parts other : Binary}

theorem shortest_value_zero (zero : parts.significand = 0) (tie : Tie) : (shortest parts tie).value = 0 := by
  rw [shortest, if_pos zero, value, Nat.cast_zero, zero_mul]

theorem shortest_value_eq_zero_iff (finite : parts.Finite) (tie : Tie) :
    (shortest parts tie).value = 0 ↔ parts.significand = 0 := by
  refine ⟨fun none => ?_, fun zero => shortest_value_zero zero tie⟩
  by_contra some
  exact (shortest_attracts (finite.canonical (Nat.pos_of_ne_zero some)) finite.greatest tie).2.ne' none

theorem eq_of_magnitude (finite : parts.Finite) (finite' : other.Finite) (sign : parts.negative = other.negative)
    (text : magnitude jsonLayout parts = magnitude jsonLayout other) : parts = other := by
  have worth : (shortest parts .even).value = (shortest other .even).value := by
    rw [← amount_magnitude, ← amount_magnitude, text]
  refine finite.eq_of_point finite' sign ?_ fun some some' => ⟨(shortest parts .even).value, ?_, ?_⟩
  · rw [← shortest_value_eq_zero_iff finite .even, ← shortest_value_eq_zero_iff finite' .even, worth]
  · exact (shortest_attracts (finite.canonical some) finite.greatest .even).1
  · rw [worth]
    exact (shortest_attracts (finite'.canonical some') finite'.greatest .even).1

end Text

variable {number other : Float}

theorem toList_write (finite : number.isFinite = true) :
    (write jsonLayout number).toList =
      if (Binary.ofFloat number).negative then '-' :: magnitude jsonLayout (Binary.ofFloat number)
      else magnitude jsonLayout (Binary.ofFloat number) := by
  rw [write, Double.isNumber_of_isFinite finite, if_neg Bool.false_ne_true]
  simp only [finite, if_true, String.toList_ofList]

theorem head?_write (finite : number.isFinite = true) :
    (write jsonLayout number).toList.head? = some '-' ↔ (Binary.ofFloat number).negative = true := by
  obtain ⟨⟨first, rest, text, digit⟩, -⟩ := magnitude_marked (Binary.ofFloat number)
  rw [toList_write finite, text]
  cases (Binary.ofFloat number).negative with
  | true => simp
  | false =>
      have apart : first ≠ '-' := by
        rintro rfl
        cases digit
      simpa using apart

theorem write_inj (finite : number.isFinite = true) (finite' : other.isFinite = true) :
    write jsonLayout number = write jsonLayout other ↔ number = other := by
  refine ⟨fun text => ?_, congrArg _⟩
  have sign : (Binary.ofFloat number).negative = (Binary.ofFloat other).negative := by
    rw [Bool.eq_iff_iff, ← head?_write finite, ← head?_write finite', text]
  have size : magnitude jsonLayout (Binary.ofFloat number) = magnitude jsonLayout (Binary.ofFloat other) := by
    have texts := congrArg String.toList text
    rw [toList_write finite, toList_write finite', sign] at texts
    split at texts
    · exact List.tail_eq_of_cons_eq texts
    · exact texts
  exact Binary.eq_of_ofFloat (eq_of_magnitude (Binary.finite_ofFloat finite) (Binary.finite_ofFloat finite') sign size)

theorem toString_plain (number : Int) : ∀ c ∈ (toString number).toList, c.isDigit = true ∨ c = '-' := by
  intro c member
  cases number with
  | ofNat size =>
      rw [show toString (Int.ofNat size) = Nat.repr size from rfl, Nat.toList_repr] at member
      exact .inl (areDigits_digitsOf size c member)
  | negSucc size =>
      rw [show toString (Int.negSucc size) = "-" ++ Nat.repr (size + 1) from rfl, String.toList_append,
        Nat.toList_repr] at member
      rcases List.mem_append.mp member with sign | digit
      · exact .inr (List.mem_singleton.mp sign)
      · exact .inl (areDigits_digitsOf (size + 1) c digit)

theorem write_ne_toString (finite : number.isFinite = true) (whole : Int) :
    write jsonLayout number ≠ toString whole := by
  intro text
  have among : ∀ c ∈ magnitude jsonLayout (Binary.ofFloat number), c.isDigit = true ∨ c = '-' := by
    intro c member
    refine toString_plain whole c ?_
    rw [← text, toList_write finite]
    split
    · exact List.mem_cons_of_mem _ member
    · exact member
  obtain ⟨-, point | exponent⟩ := magnitude_marked (Binary.ofFloat number)
  · exact absurd (among '.' point) (by decide)
  · exact absurd (among 'e' exponent) (by decide)

end Decimal

end Curator
