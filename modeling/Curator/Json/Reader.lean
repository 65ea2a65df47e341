import Curator.Json.Basic
/-!
Reading JSON text. `Json.read?` keeps every member of an object as it is written, repeated names
included; `Json.parse?` also merges them, the last value winning and the first place staying.

Arrays and objects may be nested 127 deep. An integer literal that fits 64 bits stays an integer;
any other number is a double, computed from the first digits that fit 64 bits by one
multiplication or division by a power of ten. A literal that overflows a double is refused.
-/

set_option autoImplicit false

namespace Curator.Json

def isSpace (c : Char) : Bool := c = ' ' || c = '\n' || c = '\r' || c = '\t'

def skipSpace (text : List Char) : List Char := text.dropWhile isSpace

def digit? (c : Char) : Option Nat :=
  if '0' ≤ c ∧ c ≤ '9' then some (c.toNat - '0'.toNat) else none

def hexDigit? (c : Char) : Option Nat :=
  if '0' ≤ c ∧ c ≤ '9' then some (c.toNat - '0'.toNat)
  else if 'a' ≤ c ∧ c ≤ 'f' then some (c.toNat - 'a'.toNat + 10)
  else if 'A' ≤ c ∧ c ≤ 'F' then some (c.toNat - 'A'.toNat + 10)
  else none

def readDigits : List Char → List Nat × List Char
  | [] => ([], [])
  | c :: rest =>
      match digit? c with
      | some digit => let (digits, after) := readDigits rest; (digit :: digits, after)
      | none => ([], c :: rest)

def gather : Nat → List Nat → Nat × List Nat
  | total, [] => (total, [])
  | total, digit :: rest =>
      if Number.maxNat64 < total * 10 + digit then (total, digit :: rest)
      else gather (total * 10 + digit) rest

def powerOfTen (power : Nat) : Float := Float.ofScientific 1 false power

-- `value · 10 ^ power`; none when it overflows. Below `10 ^ -308` the division is done in steps,
-- of which `fuel` bounds the number: three reach zero from any 64-bit number.
def scale : Nat → Float → Int → Option Float
  | 0, _, _ => some 0.0
  | fuel + 1, value, power =>
      if 308 < power then if value == 0.0 then some value else none
      else if 0 ≤ power then
        let scaled := value * powerOfTen power.toNat
        if scaled.isInf then none else some scaled
      else if -308 ≤ power then some (value / powerOfTen (-power).toNat)
      else if value == 0.0 then some value
      else scale fuel (value / powerOfTen 308) (power + 308)

def decimalOf (digits : List Nat) : Nat := digits.foldl (fun total digit => total * 10 + digit) 0

def numberOf? (negative : Bool) (whole : List Nat) (fraction : Option (List Nat))
    (power : Option Int) : Option Number :=
  let (head, dropped) := gather 0 whole
  match fraction, power, dropped with
  | none, none, [] =>
      if !negative then some (.int head)
      else if head = 0 ∨ 9223372036854775808 < head then some (.double (-(Float.ofNat head)))
      else some (.int (-(head : Int)))
  | _, _, _ =>
      let tail := fraction.getD []
      let (significand, left) := gather head tail
      let taken : Int := (tail.length - left.length : Nat)
      let exponent : Int := dropped.length - taken + power.getD 0
      (scale 4 (Float.ofNat significand) exponent).map fun value =>
        .double (if negative then -value else value)

def readPower? (text : List Char) : Option (Int × List Char) :=
  let (negative, body) := match text with
    | '+' :: rest => (false, rest)
    | '-' :: rest => (true, rest)
    | rest => (false, rest)
  match readDigits body with
  | ([], _) => none
  | (digits, after) =>
      let power : Int := decimalOf digits
      some (if negative then -power else power, after)

def wellLed : List Nat → Bool
  | [] => false
  | [_] => true
  | first :: _ => first != 0

structure Numeral where
  negative : Bool
  whole : List Nat
  fraction : Option (List Nat)
  power : Option Int
deriving DecidableEq, Repr

def readFraction? : List Char → Option (Option (List Nat) × List Char)
  | '.' :: rest => match readDigits rest with
      | ([], _) => none
      | (digits, after) => some (some digits, after)
  | rest => some (none, rest)

def readExponent? : List Char → Option (Option Int × List Char)
  | 'e' :: rest | 'E' :: rest => (readPower? rest).map fun (power, after) => (some power, after)
  | rest => some (none, rest)

def readNumeral? (text : List Char) : Option (Numeral × List Char) := do
  let (negative, body) := match text with
    | '-' :: rest => (true, rest)
    | rest => (false, rest)
  let (whole, afterWhole) := readDigits body
  if !wellLed whole then none
  else
    let (fraction, afterFraction) ← readFraction? afterWhole
    let (power, after) ← readExponent? afterFraction
    return (⟨negative, whole, fraction, power⟩, after)

def readNumber? (text : List Char) : Option (Number × List Char) :=
  (readNumeral? text).bind fun (numeral, after) =>
    (numberOf? numeral.negative numeral.whole numeral.fraction numeral.power).map (·, after)

def escaped? : Char → Option Char
  | '"' => some '"'
  | '\\' => some '\\'
  | '/' => some '/'
  | 'b' => some '\x08'
  | 'f' => some '\x0c'
  | 'n' => some '\n'
  | 'r' => some '\r'
  | 't' => some '\t'
  | _ => none

def unit? (a b c d : Char) : Option Nat :=
  match hexDigit? a, hexDigit? b, hexDigit? c, hexDigit? d with
  | some a, some b, some c, some d => some (((a * 16 + b) * 16 + c) * 16 + d)
  | _, _, _, _ => none

def isHighUnit (unit : Nat) : Bool := 0xD800 ≤ unit && unit < 0xDC00
def isLowUnit (unit : Nat) : Bool := 0xDC00 ≤ unit && unit < 0xE000

def joinUnits (high low : Nat) : Char :=
  Char.ofNat (0x10000 + (high - 0xD800) * 0x400 + (low - 0xDC00))

def readChars? : List Char → Option (List Char × List Char)
  | [] => none
  | '"' :: rest => some ([], rest)
  | '\\' :: 'u' :: a :: b :: c :: d :: rest =>
      match unit? a b c d with
      | none => none
      | some unit =>
          if isHighUnit unit then
            match rest with
            | '\\' :: 'u' :: e :: f :: g :: h :: more =>
                match unit? e f g h with
                | none => none
                | some low =>
                    if isLowUnit low then
                      (readChars? more).map fun (text, after) =>
                        (joinUnits unit low :: text, after)
                    else none
            | _ => none
          else if isLowUnit unit then none
          else (readChars? rest).map fun (text, after) => (Char.ofNat unit :: text, after)
  | '\\' :: c :: rest =>
      match escaped? c with
      | none => none
      | some plain => (readChars? rest).map fun (text, after) => (plain :: text, after)
  | c :: rest =>
      if c.toNat < 0x20 then none
      else (readChars? rest).map fun (text, after) => (c :: text, after)

def keyword? : List Char → Option (Json × List Char)
  | 'n' :: 'u' :: 'l' :: 'l' :: rest => some (.null, rest)
  | 't' :: 'r' :: 'u' :: 'e' :: rest => some (.bool true, rest)
  | 'f' :: 'a' :: 'l' :: 's' :: 'e' :: rest => some (.bool false, rest)
  | _ => none

mutual
-- One value; `depth` bounds the arrays and objects around what follows.
def readValue? (depth : Nat) : Nat → List Char → Option (Json × List Char)
  | 0, _ => none
  | fuel + 1, text =>
      match skipSpace text with
      | '"' :: rest =>
          (readChars? rest).map fun (chars, after) => (.string (String.ofList chars), after)
      | '[' :: rest =>
          if depth = 0 then none
          else match skipSpace rest with
            | ']' :: after => some (.array [], after)
            | body =>
                (readItems? (depth - 1) fuel body).map fun (items, after) =>
                  (.array items, after)
      | '{' :: rest =>
          if depth = 0 then none
          else match skipSpace rest with
            | '}' :: after => some (.object [], after)
            | body =>
                (readMembers? (depth - 1) fuel body).map fun (members, after) =>
                  (.object members, after)
      | c :: rest =>
          if c = '-' ∨ (digit? c).isSome then
            (readNumber? (c :: rest)).map fun (value, after) => (.number value, after)
          else keyword? (c :: rest)
      | [] => none

def readItems? (depth : Nat) : Nat → List Char → Option (List Json × List Char)
  | 0, _ => none
  | fuel + 1, text =>
      match readValue? depth fuel text with
      | none => none
      | some (item, rest) =>
          match skipSpace rest with
          | ']' :: after => some ([item], after)
          | ',' :: more =>
              (readItems? depth fuel more).map fun (items, after) => (item :: items, after)
          | _ => none

def readMembers? (depth : Nat) : Nat → List Char → Option (List (String × Json) × List Char)
  | 0, _ => none
  | fuel + 1, text =>
      match skipSpace text with
      | '"' :: rest =>
          match readChars? rest with
          | none => none
          | some (name, afterName) =>
              match skipSpace afterName with
              | ':' :: body =>
                  match readValue? depth fuel body with
                  | none => none
                  | some (value, afterValue) =>
                      let member := (String.ofList name, value)
                      match skipSpace afterValue with
                      | '}' :: after => some ([member], after)
                      | ',' :: more =>
                          (readMembers? depth fuel more).map fun (members, after) =>
                            (member :: members, after)
                      | _ => none
              | _ => none
      | _ => none
end

def maxDepth : Nat := 127

def read? (text : String) : Option Json :=
  let chars := text.toList
  match readValue? maxDepth (2 * chars.length + 2) chars with
  | some (value, rest) => if (skipSpace rest).isEmpty then some value else none
  | none => none

mutual
def merged : Json → Json
  | .array items => .array (mergedItems items)
  | .object members => .object (Row.ofMembers (mergedMembers members))
  | value => value

def mergedItems : List Json → List Json
  | [] => []
  | item :: rest => merged item :: mergedItems rest

def mergedMembers : List (String × Json) → List (String × Json)
  | [] => []
  | (name, value) :: rest => (name, merged value) :: mergedMembers rest
end

def parse? (text : String) : Option Json := (read? text).map merged

end Curator.Json
