import Curator.Graph.Check
/-!
A task graph: the tasks of a flow once everything about them has been checked, and for each task
the sources it relies on.
-/

set_option autoImplicit false

namespace Curator

structure Graph where
  tasks : List Task
  models : List Model
  reliances : List (String × List String)
deriving Repr, Inhabited

namespace Graph

def firstRepeated? : List String → List String → Option String
  | _, [] => none
  | seen, name :: rest => if name ∈ seen then some name else firstRepeated? (name :: seen) rest

def duplicate? (flow : Flow) : Option FlowError :=
  match firstRepeated? [] (flow.tasks.map Task.name) with
  | some name => some (.duplicateTask name)
  | none => (firstRepeated? [] (flow.models.map Model.name)).map .duplicateModel

def ofFlow (flow : Flow) : Except FlowError Graph :=
  let tasks := flow.tasks
  match (duplicate? flow).orElse fun _ => tasks.findSome? (Task.error? tasks) with
  | some error => .error error
  | none => do
      let reliances ← tasks.mapM fun task => do return (task.name, ← resolve tasks task.name)
      return ⟨tasks, flow.models, reliances⟩

def lookup (graph : Graph) (name : String) : Option Task := Task.find? graph.tasks name

def dependencies? (graph : Graph) (name : String) : Option (List String) :=
  (graph.lookup name).map Task.dependencies

def reliesOn? (graph : Graph) (name : String) : Option (List String) :=
  graph.reliances.lookup name

def isUnsupplied (graph : Graph) (name : String) : Bool :=
  match graph.lookup name with
  | some (.source definition) => definition.rows.isNone
  | _ => false

def namesOf (graph : Graph) (kind : Kind) : List String :=
  (graph.tasks.filter (·.kind = kind)).map Task.name

def model? (graph : Graph) (name : String) : Option Model :=
  graph.models.find? (·.name = name)

def size (graph : Graph) : Nat := graph.tasks.length

end Graph

end Curator
