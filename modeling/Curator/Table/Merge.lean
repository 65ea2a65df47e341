import Curator.Table
import Std.Data.HashMap
/-!
Three ways to make one table from others: stacking rows, joining rows on a key column, and keeping
the declared columns only.
-/

set_option autoImplicit false

namespace Curator.Table

def stack (name : String) (tables : List Table) : Except SchemaError Table :=
  ofRows name (unionColumns (tables.map Table.columns)) (tables.flatMap Table.rows)

def keyIn (column : String) (row : Row) : Option String := (Row.value? row column).bind Json.key?

def index (column : String) (rows : List Row) : Std.HashMap String Row :=
  rows.foldl
    (fun known row => match keyIn column row with
      | some key => known.insertIfNew key row
      | none => known)
    ∅

def adopt (row other : Row) : Row :=
  other.foldl
    (fun known member => if Row.has known member.1 then known else known ++ [member]) row

-- Left join: each row of the first table is completed, table by table, from the first row that
-- has the same key.
def join (name : String) (column : String) : List Table → Except SchemaError Table
  | [] => .ok (empty name [])
  | base :: others =>
      let indexes := others.map fun other => index column other.rows
      let complete (row : Row) : Row :=
        match keyIn column row with
        | none => row
        | some key => indexes.foldl
            (fun known table => match table[key]? with
              | some found => adopt known found
              | none => known)
            row
      ofRows name (unionColumns ((base :: others).map Table.columns)) (base.rows.map complete)

def merge (name : String) (column : Option String) (tables : List Table) :
    Except SchemaError Table :=
  match column with
  | some column => join name column tables
  | none => stack name tables

def restrict (name : String) (columns : List Column) (table : Table) : Except SchemaError Table :=
  if columns.isEmpty then .ok (table.rename name) else ofRows name columns table.rows

end Curator.Table
