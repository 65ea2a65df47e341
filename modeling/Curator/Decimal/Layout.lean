import Curator.Decimal.Shortest
/-!
How the shortest decimal of a double is written out. A `Layout` says which doubles are written
without an exponent, whether a whole number keeps `.0`, and how an exponent looks.
-/

set_option autoImplicit false

namespace Curator.Decimal

structure Layout where
  lowest : Int
  highest : Int
  keepPoint : Bool
  plus : Bool
  tie : Tie

def digitsOf (value : Nat) : List Char := Nat.toDigits 10 value

def zeros (count : Nat) : List Char := List.replicate count '0'

def positional (layout : Layout) (digits : List Char) (power : Int) : List Char :=
  if power < 0 then '0' :: '.' :: zeros (-power - 1).toNat ++ digits
  else
    let wholeLength := power.toNat + 1
    if digits.length ≤ wholeLength then
      digits ++ zeros (wholeLength - digits.length)
        ++ (if layout.keepPoint then ['.', '0'] else [])
    else digits.take wholeLength ++ '.' :: digits.drop wholeLength

def scientific (layout : Layout) (digits : List Char) (power : Int) : List Char :=
  let sign := if power < 0 then ['-'] else if layout.plus then ['+'] else []
  digits.take 1 ++ (if 1 < digits.length then '.' :: digits.drop 1 else [])
    ++ 'e' :: sign ++ digitsOf power.natAbs

def magnitude (layout : Layout) (parts : Binary) : List Char :=
  let decimal := shortest parts layout.tie
  let digits := digitsOf decimal.digits
  let power := decimal.exponent + digits.length - 1
  if decimal.digits = 0 ∨ (layout.lowest ≤ power ∧ power ≤ layout.highest) then
    positional layout digits power
  else scientific layout digits power

def write (layout : Layout) (value : Float) : String :=
  if value.isNaN then "NaN"
  else
    let parts := Binary.ofFloat value
    let body := if value.isFinite then magnitude layout parts else ['i', 'n', 'f']
    String.ofList (if parts.negative then '-' :: body else body)

-- Doubles inside JSON text: `0.00001`, `1000000000000000.0`, `1e+16`, `1.25e-6`.
def jsonLayout : Layout := ⟨-5, 15, true, true, .even⟩

-- Weights in a message: `1.0`, `0.0001`, `1e-5`, `1e16`.
def weightLayout : Layout := ⟨-4, 15, true, false, .up⟩

-- A ratio in a message never has an exponent: `-1`, `-0.5`.
def ratioLayout : Layout := ⟨-400, 400, false, false, .up⟩

end Curator.Decimal
