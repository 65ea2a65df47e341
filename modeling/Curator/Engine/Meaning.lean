import Curator.Engine.Plan
/-!
The meaning of plans without clock, memo or turns: errands are carried out one after the other, by whatever carries
them out.
-/

set_option autoImplicit false

namespace Curator.Plan

def inTurn (perform : Errand → Outcome) : List Errand → Outcome
  | [] => .ok []
  | errand :: rest => match perform errand with
      | .error failure => .error failure
      | .ok tables => (inTurn perform rest).map (tables ++ ·)

def evaluate (answers : Answers) (perform : Errand → Outcome) : Plan → Outcome
  | .done outcome => outcome
  | .wait _ rest => rest.evaluate answers perform
  | .ask query next => (next (answers query)).evaluate answers perform
  | .send errands next => match inTurn perform errands with
      | .error failure => .error failure
      | .ok tables => (next tables).evaluate answers perform

end Curator.Plan
