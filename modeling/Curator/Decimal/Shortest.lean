import Curator.Decimal.Binary
/-!
The shortest decimal that reads back as a given double: of all decimals inside the interval that
rounds to the double, the ones with the fewest digits, and of those the nearest.
-/

set_option autoImplicit false

namespace Curator

structure Decimal where
  digits : Nat
  exponent : Int
deriving DecidableEq, Repr

namespace Decimal

inductive Tie where
  | even
  | up
deriving DecidableEq, Repr

-- A positive double with its rounding interval, all three scaled by one common factor that also
-- turns a power of ten into the whole number `unit`.
structure Interval where
  low : Nat
  value : Nat
  high : Nat
  unit : Nat
  closed : Bool

-- The interval of `significand · 2 ^ exponent`, measured in units of `10 ^ power`. The interval
-- is half as wide below a power of two, where doubles are twice as dense.
def Interval.of (parts : Binary) (power : Int) : Interval :=
  let scale := Nat.pow 2 (parts.exponent - 2).toNat * Nat.pow 10 (-power).toNat
  let below := if parts.significand = Nat.pow 2 52 ∧ -1074 < parts.exponent then 1 else 2
  { low := (4 * parts.significand - below) * scale
    value := 4 * parts.significand * scale
    high := (4 * parts.significand + 2) * scale
    unit := Nat.pow 10 power.toNat * Nat.pow 2 (2 - parts.exponent).toNat
    closed := parts.significand % 2 = 0 }

def Interval.holds (interval : Interval) (candidate : Nat) : Bool :=
  let point := candidate * interval.unit
  if interval.closed then interval.low ≤ point && point ≤ interval.high
  else interval.low < point && point < interval.high

def Interval.nearest? (interval : Interval) (tie : Tie) : Option Nat :=
  let floor := interval.value / interval.unit
  let above := floor + 1
  match interval.holds floor && floor != 0, interval.holds above with
  | false, false => none
  | true, false => some floor
  | false, true => some above
  | true, true =>
      let down := interval.value - floor * interval.unit
      let up := above * interval.unit - interval.value
      if down < up then some floor
      else if up < down then some above
      else match tie with
        | .even => some (floor + floor % 2)
        | .up => some above

def reaches (parts : Binary) (power : Int) : Bool :=
  Nat.pow 10 power.toNat * Nat.pow 2 (-parts.exponent).toNat
    ≤ parts.significand * Nat.pow 2 parts.exponent.toNat * Nat.pow 10 (-power).toNat

def leadingPower (parts : Binary) : Int :=
  let guess := ((parts.significand.log2 : Int) + parts.exponent) * 30103 / 100000
  if reaches parts (guess + 1) then guess + 1
  else if reaches parts guess then guess
  else guess - 1

def strip : Nat → Decimal → Decimal
  | 0, decimal => decimal
  | fuel + 1, ⟨digits, exponent⟩ =>
      if digits % 10 = 0 ∧ digits ≠ 0 then strip fuel ⟨digits / 10, exponent + 1⟩
      else ⟨digits, exponent⟩

-- Tries grids from coarse to fine; seventeen digits always suffice.
def search (parts : Binary) (leading : Int) (tie : Tie) : List Nat → Decimal
  | [] => ⟨0, 0⟩
  | count :: finer =>
      let power := leading - count
      match (Interval.of parts power).nearest? tie with
      | some digits => strip 17 ⟨digits, power⟩
      | none => search parts leading tie finer

def shortest (parts : Binary) (tie : Tie) : Decimal :=
  if parts.significand = 0 then ⟨0, 0⟩
  else search parts (leadingPower parts) tie (List.range 17)

end Decimal

end Curator
