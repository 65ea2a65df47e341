/-!
JSON values and rows. The members of an object keep the order in which they were first written;
`Row.insert` replaces a member where it stands or adds it at the end.
-/

set_option autoImplicit false

namespace Curator

-- An integer literal that fits 64 bits, signed or unsigned, or else a double.
inductive Number where
  | int (value : Int)
  | double (value : Float)
deriving DecidableEq, Repr, Inhabited

inductive Json where
  | null
  | bool (value : Bool)
  | number (value : Number)
  | string (text : String)
  | array (items : List Json)
  | object (members : List (String × Json))
deriving Repr, Inhabited

abbrev Row := List (String × Json)

namespace Number

def minInt64 : Int := -9223372036854775808
def maxInt64 : Int := 9223372036854775807
def maxNat64 : Int := 18446744073709551615

def inInt64 (value : Int) : Bool := minInt64 ≤ value && value ≤ maxInt64
def inInt32 (value : Int) : Bool := -2147483648 ≤ value && value ≤ 2147483647

-- The value as a signed 64-bit integer; a double is never one, whole or not.
def int64? : Number → Option Int
  | .int value => if inInt64 value then some value else none
  | .double _ => none

def nat64? : Number → Option Nat
  | .int value => if 0 ≤ value && value ≤ maxNat64 then some value.toNat else none
  | .double _ => none

def toFloat : Number → Float
  | .int value => Float.ofInt value
  | .double value => value

def ofFloat? (value : Float) : Option Number :=
  if value.isFinite then some (.double value) else none

end Number

namespace Json

def isNull : Json → Bool
  | .null => true
  | _ => false

def isString : Json → Bool
  | .string _ => true
  | _ => false

def isBool : Json → Bool
  | .bool _ => true
  | _ => false

def number? : Json → Option Number
  | .number value => some value
  | _ => none

def string? : Json → Option String
  | .string text => some text
  | _ => none

def bool? : Json → Option Bool
  | .bool value => some value
  | _ => none

def array? : Json → Option (List Json)
  | .array items => some items
  | _ => none

def object? : Json → Option Row
  | .object members => some members
  | _ => none

def isNumber (value : Json) : Bool := value.number?.isSome
def int64? (value : Json) : Option Int := value.number?.bind Number.int64?
def nat64? (value : Json) : Option Nat := value.number?.bind Number.nat64?
def float? (value : Json) : Option Float := value.number?.map Number.toFloat

def ofFloat (value : Float) : Json :=
  match Number.ofFloat? value with
  | some finite => .number finite
  | none => .null

def ofNat (value : Nat) : Json := .number (.int value)

end Json

namespace Row

def value? (row : Row) (name : String) : Option Json := row.lookup name

def names (row : Row) : List String := row.map Prod.fst

def has (row : Row) (name : String) : Bool := (value? row name).isSome

def insert (name : String) (value : Json) : Row → Row
  | [] => [(name, value)]
  | (other, old) :: rest =>
      if other = name then (other, value) :: rest else (other, old) :: insert name value rest

-- The row that keeps the last value written under each name at the place of the first.
def ofMembers (members : List (String × Json)) : Row :=
  members.foldl (fun row member => insert member.1 member.2 row) []

theorem value?_insert_self (name : String) (value : Json) (row : Row) :
    value? (insert name value row) name = some value := by
  induction row with
  | nil => simp [insert, value?]
  | cons member rest ih =>
    rcases member with ⟨other, old⟩
    by_cases same : other = name
    · simp [insert, value?, same]
    · have different : (name == other) = false := by simpa using Ne.symm same
      simpa [insert, value?, List.lookup_cons, same, different] using ih

theorem value?_insert_of_ne {name target : String} (value : Json) (row : Row)
    (different : target ≠ name) : value? (insert name value row) target = value? row target := by
  induction row with
  | nil =>
    have apart : (target == name) = false := by simpa using different
    simp [insert, value?, List.lookup_cons, apart]
  | cons member rest ih =>
    rcases member with ⟨other, old⟩
    by_cases same : other = name
    · subst same
      have apart : (target == other) = false := by simpa using different
      simp [insert, value?, List.lookup_cons, apart]
    · by_cases here : target = other
      · simp [insert, value?, same, here]
      · have apart : (target == other) = false := by simpa using here
        simpa [insert, value?, List.lookup_cons, same, apart] using ih

end Row

end Curator
