import Curator.Json.Basic
/-!
What a model sees of a row: one number per feature. A missing value or one that is neither a number
nor a truth value counts as zero.
-/

set_option autoImplicit false

namespace Curator

def Json.featureValue : Json → Float
  | .number value => value.toFloat
  | .bool true => 1.0
  | _ => 0.0

namespace Row

def feature (row : Row) (name : String) : Float :=
  ((value? row name).map Json.featureValue).getD 0.0

def featureVector (row : Row) (names : List String) : List (String × Float) :=
  ((names.mergeSort (fun first second => first ≤ second)).eraseReps).map fun name =>
    (name, feature row name)

end Row

end Curator
