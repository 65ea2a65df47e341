import Curator.Graph
import Curator.Split
/-!
Which experiment a subject is put in by a layer of a graph.
-/

set_option autoImplicit false

namespace Curator.Graph

def bucket? (graph : Graph) (layer subject : String) : Option (Except SplitError String) :=
  match graph.lookup layer with
  | some (.layer definition) => some (definition.assign subject)
  | _ => none

end Curator.Graph
