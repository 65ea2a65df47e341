import Curator.Column
import Curator.Json.Writer
/-!
Tables: named rows under declared columns. A table is made from rows by keeping the declared
columns in their order, writing `null` for a missing value and refusing a value that the column's
type does not admit.
-/

set_option autoImplicit false

namespace Curator

inductive SchemaError where
  | unknownType (name : String)
  | notAnObject (table : String) (row : Nat)
  | typeMismatch (table : String) (row : Nat) (column : String) (expected : ColumnType)
      (found : String)
deriving DecidableEq, Repr

def SchemaError.message : SchemaError → String
  | .unknownType name => s!"unknown field type: {name}"
  | .notAnObject table row => s!"{table}: row {row} is not an object"
  | .typeMismatch table row column expected found =>
      s!"{table}: row {row} field '{column}' expects {expected.name}, found {found}"

structure Table where
  name : String
  columns : List Column
  rows : List Row
deriving Repr, Inhabited

namespace ColumnType

def parse? (text : String) : Except SchemaError ColumnType :=
  (parse text.toList).mapError fun name => .unknownType (String.ofList name)

end ColumnType

namespace Row

def vacate (name : String) : Row → Row
  | [] => []
  | (other, old) :: rest =>
      if other = name then (other, .null) :: rest else (other, old) :: vacate name rest

-- Moves the declared columns out of `source` into `target`, one after the other, so a column
-- declared twice ends up with the `null` that its first declaration left behind.
def conform (table : String) (index : Nat) : List Column → Row → Row → Except SchemaError Row
  | [], _, target => .ok target
  | column :: rest, source, target =>
      let value := (value? source column.name).getD .null
      if column.type.accepts value then
        conform table index rest (vacate column.name source) (insert column.name value target)
      else
        .error (.typeMismatch table index column.name column.type value.describe)

end Row

namespace Table

def conformAll (name : String) (columns : List Column) : Nat → List Row → Except SchemaError (List Row)
  | _, [] => .ok []
  | index, row :: rest => do
      let first ← Row.conform name index columns row []
      let others ← conformAll name columns (index + 1) rest
      return first :: others

def ofRows (name : String) (columns : List Column) (rows : List Row) : Except SchemaError Table := do
  return ⟨name, columns, ← conformAll name columns 0 rows⟩

def objects (name : String) : Nat → List Json → Except SchemaError (List Row)
  | _, [] => .ok []
  | index, .object row :: rest => do return row :: (← objects name (index + 1) rest)
  | index, _ :: _ => .error (.notAnObject name index)

def ofRecords (name : String) (columns : List Column) (records : List Json) :
    Except SchemaError Table := do
  ofRows name columns (← objects name 0 records)

def empty (name : String) (columns : List Column) : Table := ⟨name, columns, []⟩

def column? (table : Table) (name : String) : Option Column :=
  table.columns.find? (·.name = name)

def size (table : Table) : Nat := table.rows.length

def isEmpty (table : Table) : Bool := table.rows.isEmpty

def rename (table : Table) (name : String) : Table := { table with name }

def take (table : Table) (count : Nat) : Table := { table with rows := table.rows.take count }

end Table

def unionColumns (schemas : List (List Column)) : List Column :=
  schemas.flatten.foldl
    (fun known column => if known.any (·.name = column.name) then known else known ++ [column]) []

end Curator
