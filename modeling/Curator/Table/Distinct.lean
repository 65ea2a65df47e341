import Curator.Table.Merge
/-!
Removing repeats: of the rows with one key the first stays, and a row without a key stays always.
-/

set_option autoImplicit false

namespace Curator.Table

def distinctAfter (column : String) : List String → List Row → List Row
  | _, [] => []
  | seen, row :: rest =>
      match keyIn column row with
      | none => row :: distinctAfter column seen rest
      | some key =>
          if key ∈ seen then distinctAfter column seen rest
          else row :: distinctAfter column (key :: seen) rest

def distinctBy (column : String) (rows : List Row) : List Row := distinctAfter column [] rows

end Curator.Table
