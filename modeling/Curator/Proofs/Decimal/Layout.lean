import Curator.Decimal.Layout
import Curator.Proofs.Decimal.Shortest
/-!
The text of a double as JSON has it. Whichever way the text is laid out, the decimal that was written is
read off it again, so that different doubles never have the same text.
-/

set_option autoImplicit false

namespace Curator.Decimal

/-! Reading a decimal text. -/

def power : List Char → Int
  | '-' :: digits => -(Nat.ofDigitChars 10 digits 0)
  | '+' :: digits => Nat.ofDigitChars 10 digits 0
  | digits => Nat.ofDigitChars 10 digits 0

def scaled (mantissa : List Char) (exponent : Int) : ℚ :=
  let whole := mantissa.takeWhile (· ≠ '.')
  let places := (mantissa.dropWhile (· ≠ '.')).drop 1
  Nat.ofDigitChars 10 (whole ++ places) 0 * 10 ^ (exponent - places.length)

def amount (text : List Char) : ℚ :=
  scaled (text.takeWhile (· ≠ 'e')) (power ((text.dropWhile (· ≠ 'e')).drop 1))

def AreDigits (text : List Char) : Prop := ∀ c ∈ text, c.isDigit = true

theorem areDigits_digitsOf (value : Nat) : AreDigits (digitsOf value) :=
  fun _ member => Nat.isDigit_of_mem_toDigits (by decide) (by decide) member

theorem areDigits_zeros (count : Nat) : AreDigits (zeros count) := by
  intro c member
  rw [List.eq_of_mem_replicate member]
  rfl

section Digits

variable {text other : List Char}

theorem AreDigits.append (digits : AreDigits text) (digits' : AreDigits other) : AreDigits (text ++ other) :=
  fun c member => (List.mem_append.mp member).elim (digits c) (digits' c)

theorem AreDigits.sublist (digits : AreDigits text) (among : other.Sublist text) : AreDigits other :=
  fun c member => digits c (among.subset member)

theorem AreDigits.ne (digits : AreDigits text) (mark : Char) (apart : mark.isDigit = false) :
    ∀ c ∈ text, decide (c ≠ mark) = true := by
  intro c member
  refine decide_eq_true fun same => ?_
  rw [← same, digits c member] at apart
  cases apart

theorem takeWhile_mark {mark : Char} (plain : ∀ c ∈ text, decide (c ≠ mark) = true) (rest : List Char) :
    (text ++ mark :: rest).takeWhile (· ≠ mark) = text ∧ (text ++ mark :: rest).dropWhile (· ≠ mark) = mark :: rest := by
  rw [List.takeWhile_append_of_pos plain, List.dropWhile_append_of_pos plain]
  simp

theorem takeWhile_plain {mark : Char} (plain : ∀ c ∈ text, decide (c ≠ mark) = true) :
    text.takeWhile (· ≠ mark) = text ∧ text.dropWhile (· ≠ mark) = [] := by
  refine ⟨List.takeWhile_eq_self_iff.mpr plain, ?_⟩
  rw [List.dropWhile_eq_nil_iff]
  exact plain

theorem scaled_point (digits : AreDigits text) (exponent : Int) :
    scaled (text ++ '.' :: other) exponent =
      Nat.ofDigitChars 10 (text ++ other) 0 * 10 ^ (exponent - other.length) := by
  obtain ⟨before, behind⟩ := takeWhile_mark (digits.ne '.' rfl) other
  rw [scaled, before, behind, List.drop_one, List.tail_cons]

theorem scaled_whole (digits : AreDigits text) (exponent : Int) :
    scaled text exponent = Nat.ofDigitChars 10 text 0 * 10 ^ exponent := by
  obtain ⟨all, none⟩ := takeWhile_plain (digits.ne '.' rfl)
  rw [scaled, all, none, List.drop_nil, List.append_nil, List.length_nil, Nat.cast_zero, sub_zero]

theorem plain_point (digits : AreDigits text) (digits' : AreDigits other) :
    ∀ c ∈ text ++ '.' :: other, decide (c ≠ 'e') = true := by
  intro c member
  rcases List.mem_append.mp member with before | point | behind
  · exact digits.ne 'e' rfl c before
  · rfl
  · exact digits'.ne 'e' rfl c ‹_›

theorem amount_point (digits : AreDigits text) (digits' : AreDigits other) :
    amount (text ++ '.' :: other) = Nat.ofDigitChars 10 (text ++ other) 0 * 10 ^ (-other.length : Int) := by
  obtain ⟨all, none⟩ := takeWhile_plain (plain_point digits digits')
  rw [amount, all, none, scaled_point digits]
  simp [power]

theorem amount_exponent (plain : ∀ c ∈ text, decide (c ≠ 'e') = true) :
    amount (text ++ 'e' :: other) = scaled text (power other) := by
  obtain ⟨before, behind⟩ := takeWhile_mark plain other
  rw [amount, before, behind, List.drop_one, List.tail_cons]

end Digits

/-! The layouts. -/

theorem ofDigitChars_digitsOf (value : Nat) : Nat.ofDigitChars 10 (digitsOf value) 0 = value :=
  Nat.ofDigitChars_ten_toDigits

theorem ofDigitChars_zeros (digits : List Char) (count : Nat) :
    Nat.ofDigitChars 10 (digits ++ zeros count) 0 = Nat.ofDigitChars 10 digits 0 * 10 ^ count := by
  rw [Nat.ofDigitChars_append, zeros, Nat.ofDigitChars_replicate_zero, Nat.mul_comm]

theorem length_digitsOf_pos (value : Nat) : 0 < (digitsOf value).length := Nat.length_toDigits_pos

theorem power_signed (power' : Int) :
    power ((if power' < 0 then ['-'] else ['+']) ++ digitsOf power'.natAbs) = power' := by
  by_cases below : power' < 0
  · rw [if_pos below, List.singleton_append, power, ofDigitChars_digitsOf]
    omega
  · rw [if_neg below, List.singleton_append, power, ofDigitChars_digitsOf]
    omega

theorem amount_positional (value : Nat) (first : Int) :
    amount (positional jsonLayout (digitsOf value) first) = value * 10 ^ (first + 1 - (digitsOf value).length) := by
  have digits := areDigits_digitsOf value
  rw [positional]
  by_cases below : first < 0
  · have zero : AreDigits ['0'] := by simp [AreDigits]
    have count : Nat.ofDigitChars 10 (['0'] ++ (zeros (-first - 1).toNat ++ digitsOf value)) 0 = value := by
      rw [← List.append_assoc, Nat.ofDigitChars_append, ofDigitChars_zeros, Nat.ofDigitChars_cons,
        Nat.ofDigitChars_nil]
      simpa using ofDigitChars_digitsOf value
    have read := amount_point zero ((areDigits_zeros (-first - 1).toNat).append digits)
    rw [if_pos below]
    refine read.trans ?_
    rw [count, List.length_append, zeros, List.length_replicate]
    congr 2
    omega
  · rw [if_neg below]
    by_cases short : (digitsOf value).length ≤ first.toNat + 1
    · have read := amount_point (digits.append (areDigits_zeros (first.toNat + 1 - (digitsOf value).length)))
        (by simp [AreDigits] : AreDigits ['0'])
      rw [if_pos short]
      refine read.trans ?_
      rw [show ['0'] = zeros 1 from rfl, ofDigitChars_zeros, ofDigitChars_zeros, ofDigitChars_digitsOf]
      have places : first + 1 - (digitsOf value).length = ((first.toNat + 1 - (digitsOf value).length : Nat) : Int) := by
        omega
      rw [places, zpow_natCast, zeros, List.length_replicate]
      push_cast
      rw [zpow_neg, zpow_one]
      field_simp
    · have read := amount_point (digits.sublist (List.take_sublist (first.toNat + 1) _))
        (digits.sublist (List.drop_sublist (first.toNat + 1) _))
      rw [if_neg short]
      refine read.trans ?_
      rw [List.take_append_drop, ofDigitChars_digitsOf, List.length_drop]
      congr 2
      omega

theorem amount_scientific (value : Nat) (first : Int) :
    amount (scientific jsonLayout (digitsOf value) first) = value * 10 ^ (first + 1 - (digitsOf value).length) := by
  have digits := areDigits_digitsOf value
  have head : AreDigits ((digitsOf value).take 1) := digits.sublist (List.take_sublist 1 _)
  have rest : AreDigits ((digitsOf value).drop 1) := digits.sublist (List.drop_sublist 1 _)
  have layout : scientific jsonLayout (digitsOf value) first =
      (digitsOf value).take 1 ++ (if 1 < (digitsOf value).length then '.' :: (digitsOf value).drop 1 else []) ++
        'e' :: ((if first < 0 then ['-'] else ['+']) ++ digitsOf first.natAbs) := by
    simp [scientific, jsonLayout]
  rw [layout]
  by_cases more : 1 < (digitsOf value).length
  · rw [if_pos more, amount_exponent (plain_point head rest), power_signed, scaled_point head, List.take_append_drop,
      ofDigitChars_digitsOf, List.length_drop]
    congr 2
    omega
  · have single : (digitsOf value).length = 1 := by
      have := length_digitsOf_pos value
      omega
    rw [if_neg more, List.append_nil, List.take_of_length_le single.le, amount_exponent (digits.ne 'e' rfl), power_signed,
      scaled_whole digits, ofDigitChars_digitsOf, single]
    congr 2
    omega

theorem amount_magnitude (parts : Binary) : amount (magnitude jsonLayout parts) = (shortest parts .even).value := by
  have same (decimal : Decimal) : (decimal.digits : ℚ) * 10 ^
      (decimal.exponent + (digitsOf decimal.digits).length - 1 + 1 - (digitsOf decimal.digits).length) = decimal.value := by
    rw [value]
    congr 2
    omega
  rw [← same, magnitude]
  split
  · exact amount_positional _ _
  · exact amount_scientific _ _

/-! What tells a double from other texts: a digit is in front, and a point or an exponent marks it. -/

section Marks

variable {first : Char} {rest : List Char} (power' : Int)

theorem positional_cons (digit : first.isDigit = true) :
    (∃ head tail, positional jsonLayout (first :: rest) power' = head :: tail ∧ head.isDigit = true) ∧
      '.' ∈ positional jsonLayout (first :: rest) power' := by
  rw [positional]
  by_cases below : power' < 0
  · rw [if_pos below]
    exact ⟨⟨'0', _, rfl, rfl⟩, by simp⟩
  · rw [if_neg below]
    by_cases short : (first :: rest).length ≤ power'.toNat + 1
    · rw [if_pos short]
      exact ⟨⟨first, _, rfl, digit⟩, by simp [jsonLayout]⟩
    · rw [if_neg short]
      exact ⟨⟨first, _, rfl, digit⟩, by simp⟩

theorem scientific_cons (digit : first.isDigit = true) :
    (∃ head tail, scientific jsonLayout (first :: rest) power' = head :: tail ∧ head.isDigit = true) ∧
      'e' ∈ scientific jsonLayout (first :: rest) power' := by
  rw [scientific]
  exact ⟨⟨first, _, rfl, digit⟩, by simp⟩

end Marks

theorem magnitude_marked (parts : Binary) :
    (∃ head tail, magnitude jsonLayout parts = head :: tail ∧ head.isDigit = true) ∧
      ('.' ∈ magnitude jsonLayout parts ∨ 'e' ∈ magnitude jsonLayout parts) := by
  rw [magnitude]
  generalize (shortest parts jsonLayout.tie).digits = value
  obtain ⟨first, rest, digits⟩ := List.exists_cons_of_ne_nil (List.ne_nil_of_length_pos (length_digitsOf_pos value))
  have digit : first.isDigit = true := areDigits_digitsOf value first (digits ▸ List.mem_cons_self)
  rw [digits]
  split
  · exact ⟨(positional_cons _ digit).1, .inl (positional_cons _ digit).2⟩
  · exact ⟨(scientific_cons _ digit).1, .inr (scientific_cons _ digit).2⟩

end Curator.Decimal
