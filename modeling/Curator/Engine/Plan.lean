import Curator.Failure
import Curator.Table.Merge
/-!
Plans: what a task is going to do. A plan ends with tables or a failure; before that it may wait,
ask a backend, or send other tasks on errands that are carried out side by side. What follows an
answer depends on the answer alone, so a plan says nothing about time or order.
-/

set_option autoImplicit false

namespace Curator

inductive Backend where
  | source (name : String)
  | model (name : String)
deriving DecidableEq, Repr

inductive Query where
  | rows (source : String) (columns : List String) (filter : Option (String × String))
  | scores (model : String) (subject : Option String) (features : List String) (rows : List Row)
deriving Repr

namespace Query

abbrev Answer : Query → Type
  | .rows _ _ _ => Except Causes (List Row)
  | .scores _ _ _ _ => Except Causes (List Float)

def backend : Query → Backend
  | .rows source _ _ => .source source
  | .scores model _ _ _ => .model model

end Query

abbrev Answers := (query : Query) → query.Answer

abbrev Outcome := Except Failure (List Table)

inductive Errand where
  | run (task : String) (input : List Table)
  -- Produces one table from a task that nothing comes before.
  | process (task : String)
  -- The same, but no more than once per request.
  | fetch (task : String)
deriving Repr

def Errand.task : Errand → String
  | .run task _ => task
  | .process task => task
  | .fetch task => task

def Errand.isFetch : Errand → Bool
  | .fetch _ => true
  | _ => false

inductive Plan where
  | done (outcome : Outcome)
  | wait (delay : Nat) (rest : Plan)
  | ask (query : Query) (next : query.Answer → Plan)
  | send (errands : List Errand) (next : List Table → Plan)

namespace Plan

instance : Inhabited Plan := ⟨.done (.ok [])⟩

def fail (failure : Failure) : Plan := .done (.error failure)

def succeed (tables : List Table) : Plan := .done (.ok tables)

def andThen : Plan → (List Table → Plan) → Plan
  | .done (.ok tables), next => next tables
  | .done (.error failure), _ => fail failure
  | .wait delay rest, next => .wait delay (rest.andThen next)
  | .ask query answered, next => .ask query fun answer => (answered answer).andThen next
  | .send errands finished, next => .send errands fun tables => (finished tables).andThen next

def stage (tasks : List String) (input : List Table) (next : List Table → Plan) : Plan :=
  .send (tasks.map fun task => .run task input) next

def chain : List String → List Table → (List Table → Plan) → Plan
  | [], input, next => next input
  | task :: rest, input, next => stage [task] input fun output => chain rest output next

def pull (tasks : List String) (next : List Table → Plan) : Plan :=
  .send (tasks.map .fetch) next

end Plan

def Outcome.single (task : String) : List Table → Except Failure Table
  | [table] => .ok table
  | tables => (Table.stack task tables).mapError (.schema task)

end Curator
