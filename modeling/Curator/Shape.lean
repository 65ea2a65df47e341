/-!
Shapes: how far a reader looks into a document. What a reader does not look at can hold anything
without doing any harm.
-/

set_option autoImplicit false

namespace Curator

inductive Shape where
  | whole
  | record (members : List (String × Shape))
  | list (item : Shape)
deriving Inhabited

namespace Shape

def names : Shape → List String
  | record members => members.map Prod.fst
  | _ => []

def member? (shape : Shape) (name : String) : Option Shape :=
  match shape with
  | record members => members.lookup name
  | _ => some whole

def item : Shape → Shape
  | list item => item
  | _ => whole

end Shape

end Curator
