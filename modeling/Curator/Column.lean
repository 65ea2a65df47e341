import Curator.Text.Blank
import Curator.Json.Basic
/-!
Column types: their names, and which values a column of a type admits. `null` is admitted by every
type.
-/

set_option autoImplicit false

namespace Curator

inductive ColumnType where
  | int32
  | int64
  | float
  | double
  | str
  | bool
  | bytes
  | list (element : ColumnType)
deriving DecidableEq, Repr, Inhabited

structure Column where
  name : String
  type : ColumnType
deriving DecidableEq, Repr, Inhabited

namespace ColumnType

def name : ColumnType → String
  | int32 => "int32"
  | int64 => "int64"
  | float => "float"
  | double => "double"
  | str => "str"
  | bool => "bool"
  | bytes => "bytes"
  | list element => "list_" ++ element.name

def scalar? : List Char → Option ColumnType
  | ['i', 'n', 't', '3', '2'] | ['i', 'n', 't'] => some int32
  | ['i', 'n', 't', '6', '4'] | ['l', 'o', 'n', 'g'] => some int64
  | ['f', 'l', 'o', 'a', 't'] => some float
  | ['d', 'o', 'u', 'b', 'l', 'e'] => some double
  | ['s', 't', 'r'] | ['s', 't', 'r', 'i', 'n', 'g'] => some str
  | ['b', 'o', 'o', 'l'] | ['b', 'o', 'o', 'l', 'e', 'a', 'n'] => some bool
  | ['b', 'y', 't', 'e', 's'] => some bytes
  | _ => none

def element? : List Char → Option (List Char)
  | 'l' :: 'i' :: 's' :: 't' :: '_' :: rest => some rest
  | _ => none

theorem length_lt_of_element? {text rest : List Char} (found : element? text = some rest) :
    rest.length < text.length := by
  unfold element? at found
  split at found
  · cases found
    simp only [List.length_cons]
    omega
  · cases found

def parse (text : List Char) : Except (List Char) ColumnType :=
  let lower := (Text.trim text).map Char.toLower
  match _ : element? lower with
  | some rest => (parse rest).map list
  | none => match scalar? lower with
    | some type => .ok type
    | none => .error text
termination_by text.length
decreasing_by
  have shorter := length_lt_of_element? ‹_›
  have trimmed := Text.length_trim_le text
  simp only [lower, List.length_map] at shorter
  omega

def isNumeric : ColumnType → Bool
  | int32 | int64 | float | double => true
  | _ => false

def isByte (value : Json) : Bool :=
  match value.nat64? with
  | some byte => byte ≤ 255
  | none => false

def accepts : ColumnType → Json → Bool
  | _, .null => true
  | int32, value => value.int64?.any Number.inInt32
  | int64, value => value.int64?.isSome
  | float, value | double, value => value.isNumber
  | str, value => value.isString
  | bool, value => value.isBool
  | bytes, .string _ => true
  | bytes, .array items => items.all isByte
  | bytes, _ => false
  | list element, .array items => items.all element.accepts
  | list _, _ => false

end ColumnType

end Curator
