import Curator.Graph.Fault
/-!
The sources that a task depends on, directly or through others: a depth-first walk of the
dependencies in declaration order that lists every source where it is first met. A name that is
met while it is being expanded closes a cycle.
-/

set_option autoImplicit false

namespace Curator

def Task.find? (tasks : List Task) (name : String) : Option Task :=
  List.find? (fun task => task.name = name) tasks

theorem Task.mem_of_find? {tasks : List Task} {name : String} {task : Task}
    (found : Task.find? tasks name = some task) : task ∈ tasks :=
  List.mem_of_find?_eq_some found

theorem Task.name_of_find? {tasks : List Task} {name : String} {task : Task}
    (found : Task.find? tasks name = some task) : task.name = name := by
  simpa using List.find?_some found

namespace Resolve

def pending (tasks : List Task) (path : List String) : List Task :=
  tasks.filter fun task => task.name ∉ path

theorem pending_snoc_length_lt {tasks : List Task} {path : List String} {name : String}
    {task : Task} (found : Task.find? tasks name = some task) (fresh : name ∉ path) :
    (pending tasks (path ++ [name])).length < (pending tasks path).length := by
  have member := Task.mem_of_find? found
  have named := Task.name_of_find? found
  have narrower : pending tasks (path ++ [name]) =
      (pending tasks path).filter fun other => other.name ≠ name := by
    simp only [pending, List.filter_filter]
    congr 1
    funext other
    simp [and_comm]
  rw [narrower]
  apply List.length_filter_lt_length_iff_exists.mpr
  exact ⟨task, by simp [pending, member, named, fresh], by simp [named]⟩

def cycleAt (path : List String) (name : String) : List String :=
  path.dropWhile (· ≠ name) ++ [name]

def addLeaf (leaves : List String) (name : String) : List String :=
  if name ∈ leaves then leaves else leaves ++ [name]

mutual
-- Expands a task; `path` holds the tasks around it, outermost first.
def visit (tasks : List Task) (path leaves : List String) (name : String) :
    Except FlowError (List String) :=
  match _ : Task.find? tasks name with
  | none => .error (.unknownTask name)
  | some task =>
      if name ∈ path then .error (.cycle (cycleAt path name))
      else visitAll tasks (path ++ [name]) leaves name task.dependencies
termination_by ((pending tasks path).length, 0)
decreasing_by
  exact Prod.Lex.left _ _ (pending_snoc_length_lt ‹_› ‹_›)

def visitAll (tasks : List Task) (path leaves : List String) (owner : String) :
    List String → Except FlowError (List String)
  | [] => .ok leaves
  | dependency :: rest =>
      match Task.find? tasks dependency with
      | none => .error (.unknownReference owner dependency)
      | some task =>
          if task.isSource then visitAll tasks path (addLeaf leaves dependency) owner rest
          else
            match visit tasks path leaves dependency with
            | .error error => .error error
            | .ok leaves => visitAll tasks path leaves owner rest
termination_by dependencies => ((pending tasks path).length, dependencies.length + 1)
decreasing_by
  all_goals simp_wf
  · exact Prod.Lex.right _ (by omega)
  · exact Prod.Lex.right _ (by omega)
  · exact Prod.Lex.right _ (by omega)
end

end Resolve

def resolve (tasks : List Task) (name : String) : Except FlowError (List String) :=
  Resolve.visit tasks [] [] name

end Curator
