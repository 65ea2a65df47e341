/-!
A finite double taken apart into a sign, a natural number and a power of two, and what can be
computed exactly from the parts: the whole number nearest to it and the nearest single-precision
value.
-/

set_option autoImplicit false

namespace Curator

structure Binary where
  negative : Bool
  significand : Nat
  exponent : Int
deriving DecidableEq, Repr

namespace Binary

def ofFloat (value : Float) : Binary :=
  let bits : Nat := value.toBits.toNat
  let fraction : Nat := bits % Nat.pow 2 52
  let biased : Nat := bits / Nat.pow 2 52 % Nat.pow 2 11
  let negative := decide (Nat.pow 2 63 ≤ bits)
  if biased = 0 then ⟨negative, fraction, -1074⟩
  else ⟨negative, fraction + Nat.pow 2 52, Int.ofNat biased - 1075⟩

def signed (negative : Bool) (magnitude : Nat) : Int :=
  if negative then -(magnitude : Int) else magnitude

def divHalfUp (numerator denominator : Nat) : Nat :=
  (2 * numerator + denominator) / (2 * denominator)

def divHalfEven (numerator denominator : Nat) : Nat :=
  let quotient := numerator / denominator
  let twice := 2 * (numerator % denominator)
  if twice < denominator then quotient
  else if denominator < twice then quotient + 1
  else quotient + quotient % 2

-- The nearest whole number, a half going away from zero.
def round (parts : Binary) : Int :=
  signed parts.negative <|
    if 0 ≤ parts.exponent then parts.significand * Nat.pow 2 parts.exponent.toNat
    else divHalfUp parts.significand (Nat.pow 2 (-parts.exponent).toNat)

def whole? (parts : Binary) : Option Int :=
  if 0 ≤ parts.exponent then
    some (signed parts.negative (parts.significand * Nat.pow 2 parts.exponent.toNat))
  else
    let scale := Nat.pow 2 (-parts.exponent).toNat
    if parts.significand % scale = 0 then
      some (signed parts.negative (parts.significand / scale))
    else none

def powerOfTwo (exponent : Int) : Float :=
  Float.ofBits (UInt64.ofNat ((exponent + 1023).toNat * Nat.pow 2 52))

-- The single-precision value nearest to a double, ties going to the even significand. A double
-- beyond the largest single becomes infinite.
def toSingle (value : Float) : Float :=
  if !value.isFinite then value
  else
    let parts := ofFloat value
    if parts.significand = 0 then value
    else
      let unit := max ((parts.significand.log2 : Int) + parts.exponent - 23) (-149)
      if unit ≤ parts.exponent then
        if 128 ≤ (parts.significand.log2 : Int) + parts.exponent then
          if parts.negative then -(1.0 / 0.0) else 1.0 / 0.0
        else value
      else
        let kept := divHalfEven parts.significand (Nat.pow 2 (unit - parts.exponent).toNat)
        let magnitude :=
          if 128 ≤ (kept.log2 : Int) + unit then 1.0 / 0.0
          else Float.ofNat kept * powerOfTwo unit
        if parts.negative then -magnitude else magnitude

end Binary

end Curator
