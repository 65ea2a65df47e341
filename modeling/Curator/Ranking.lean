import Curator.Failure
import Curator.Flow.Basic
import Curator.Table.Order
/-!
Ranking candidates: each gets its model's score in the score column, the best come first, and the
ranking's limit cuts the list. A score that is no finite number is written as `null` and comes last.
-/

set_option autoImplicit false

namespace Curator.Ranking

def scoredColumns (ranking : Ranking) (columns : List Column) : List Column :=
  if columns.any (·.name = ranking.scoreColumn) then columns
  else columns ++ [⟨ranking.scoreColumn, .double⟩]

def scoredRows (ranking : Ranking) (rows : List Row) (scores : List Float) : List Row :=
  rows.zipWith (fun row score => Row.insert ranking.scoreColumn (Json.ofFloat score) row) scores

def cut (limit : Option Nat) (rows : List Row) : List Row :=
  match limit with
  | some limit => rows.take limit
  | none => rows

def rank (ranking : Ranking) (name : String) (candidates : Table) (scores : List Float) :
    Except Failure Table :=
  if scores.length = candidates.size then
    let ordered := Row.orderBy ranking.scoreColumn .descending
      (scoredRows ranking candidates.rows scores)
    (Table.ofRows name (scoredColumns ranking candidates.columns) (cut ranking.limit ordered)).mapError
      (.schema name)
  else .error (.scoring ranking.model (.miscounted scores.length candidates.size))

end Curator.Ranking
