import Curator.Json.Basic
/-!
Ordering rows by a numeric column. The sort is stable, and rows without a number in the column
come last in either direction.
-/

set_option autoImplicit false

namespace Curator

inductive Direction where
  | ascending
  | descending
deriving DecidableEq, Repr

namespace Row

def numberIn (column : String) (row : Row) : Option Float := (value? row column).bind Json.float?

def precedes (column : String) (direction : Direction) (first second : Row) : Bool :=
  match numberIn column first, numberIn column second with
  | some x, some y => match direction with
      | .ascending => !(y < x)
      | .descending => !(x < y)
  | some _, none => true
  | none, some _ => false
  | none, none => true

def orderBy (column : String) (direction : Direction) (rows : List Row) : List Row :=
  rows.mergeSort (precedes column direction)

end Row

end Curator
