import Curator.Proofs.Graph.Leaves
import Mathlib.Data.List.Chain
/-!
How a walk of the dependencies fails. Where every reference is defined it fails only by meeting a
name that it is expanding, and the tasks between the two meetings are a cycle below the name where it
began. It does fail when there is a cycle below, wherever that is. Expansions lie within each other no
deeper than there are tasks.
-/

set_option autoImplicit false

namespace Curator

def Defined (tasks : List Task) : Prop :=
  ∀ name dependency, Depends tasks name dependency → ∃ task, Task.find? tasks dependency = some task

/-- A way along the dependencies back to where it starts, past no task twice, and all of it at or
below the given name. -/
structure IsLoop (tasks : List Task) (start : String) (path : List String) : Prop where
  long : 2 ≤ path.length
  closed : path.head? = path.getLast?
  simple : path.tail.Nodup
  linked : path.IsChain (Depends tasks)
  reached : ∀ name ∈ path, Relation.ReflTransGen (Depends tasks) start name

namespace Resolve

structure Trail (tasks : List Task) (start : String) (path : List String) (name : String) : Prop where
  distinct : path.Nodup
  linked : (path ++ [name]).IsChain (Depends tasks)
  reached : ∀ passed ∈ path ++ [name], Relation.ReflTransGen (Depends tasks) start passed

theorem Trail.start (tasks : List Task) (name : String) : Trail tasks name [] name where
  distinct := List.nodup_nil
  linked := List.isChain_singleton name
  reached passed member := by
    have same : passed = name := by simpa using member
    exact same ▸ .refl

theorem Trail.extend {tasks : List Task} {start name dependency : String} {path : List String}
    (trail : Trail tasks start path name) (fresh : name ∉ path) (depends : Depends tasks name dependency) :
    Trail tasks start (path ++ [name]) dependency where
  distinct := by
    have apart : ∀ passed ∈ path, passed ≠ name := fun passed member same => fresh (same ▸ member)
    exact List.nodup_append.mpr ⟨trail.distinct, by simp, by simpa using apart⟩
  linked := by
    refine trail.linked.append (List.isChain_singleton dependency) ?_
    intro last isLast next isNext
    have left : last = name := by simpa [eq_comm] using isLast
    have right : next = dependency := by simpa [eq_comm] using isNext
    exact left ▸ right ▸ depends
  reached passed member := by
    rcases List.mem_append.mp member with around | below
    · exact trail.reached passed around
    · have same : passed = dependency := by simpa using below
      exact same ▸ (trail.reached name (by simp)).tail depends

theorem cycleAt_of_mem {path : List String} {name : String} (around : name ∈ path) :
    ∃ before inner, path = before ++ name :: inner ∧ cycleAt path name = name :: inner ++ [name] := by
  induction path with
  | nil => simp at around
  | cons head rest ih =>
      by_cases same : head = name
      · exact ⟨[], rest, by simp [same], by simp [cycleAt, same]⟩
      · have further : name ∈ rest := (List.mem_cons.mp around).resolve_left (Ne.symm same)
        obtain ⟨before, inner, split, cycle⟩ := ih further
        have passed : cycleAt (head :: rest) name = cycleAt rest name := by simp [cycleAt, same]
        exact ⟨head :: before, inner, by simp [split], passed.trans cycle⟩

theorem Trail.closes {tasks : List Task} {start name : String} {path : List String}
    (trail : Trail tasks start path name) (around : name ∈ path) :
    IsLoop tasks start (cycleAt path name) := by
  obtain ⟨before, inner, split, cycle⟩ := cycleAt_of_mem around
  have whole : path ++ [name] = before ++ (name :: inner ++ [name]) := by simp [split]
  have distinct : (name :: inner).Nodup := (List.nodup_append.mp (split ▸ trail.distinct)).2.1
  obtain ⟨missing, others⟩ := List.nodup_cons.mp distinct
  rw [cycle]
  refine ⟨by simp, by rw [List.getLast?_append]; simp, ?_, ?_, ?_⟩
  · have apart : ∀ passed ∈ inner, passed ≠ name := fun passed member same => missing (same ▸ member)
    exact List.nodup_append.mpr ⟨others, by simp, by simpa using apart⟩
  · have linked := trail.linked
    rw [whole] at linked
    exact linked.right_of_append
  · intro passed member
    apply trail.reached
    rw [whole]
    exact List.mem_append_right _ member

theorem visit_error_iff {tasks : List Task} {path leaves : List String} {name : String} {error : FlowError} :
    visit tasks path leaves name = .error error ↔
      (Task.find? tasks name = none ∧ error = .unknownTask name) ∨
        ∃ task, Task.find? tasks name = some task ∧
          ((name ∈ path ∧ error = .cycle (cycleAt path name)) ∨
            (name ∉ path ∧
              visitAll tasks (path ++ [name]) leaves name task.dependencies = .error error)) := by
  rw [visit]
  split
  · rename_i missing
    simp [missing, @eq_comm _ error]
  · rename_i task found
    by_cases around : name ∈ path <;> simp [found, around, @eq_comm _ error]

theorem visitAll_cons_error_iff {tasks : List Task} {path leaves : List String}
    {owner dependency : String} {rest : List String} {error : FlowError} :
    visitAll tasks path leaves owner (dependency :: rest) = .error error ↔
      (Task.find? tasks dependency = none ∧ error = .unknownReference owner dependency) ∨
        ∃ task, Task.find? tasks dependency = some task ∧
          ((task.isSource = true ∧
              visitAll tasks path (addLeaf leaves dependency) owner rest = .error error) ∨
            (task.isSource = false ∧
              (visit tasks path leaves dependency = .error error ∨
                ∃ between, visit tasks path leaves dependency = .ok between ∧
                  visitAll tasks path between owner rest = .error error))) := by
  rw [visitAll]
  cases found : Task.find? tasks dependency with
  | none => simp [@eq_comm _ error]
  | some task =>
      cases isSource : task.isSource with
      | true => simp [isSource]
      | false => cases visit tasks path leaves dependency <;> simp [isSource]

mutual
theorem visit_error (tasks : List Task) (defined : Defined tasks) (start : String)
    (path leaves : List String) (name : String) (error : FlowError)
    (trail : Trail tasks start path name) (configured : ∃ task, Task.find? tasks name = some task)
    (failed : visit tasks path leaves name = .error error) :
    ∃ cycle, error = .cycle cycle ∧ IsLoop tasks start cycle := by
  obtain ⟨missing, -⟩ | ⟨task, found, ⟨around, rfl⟩ | ⟨fresh, below⟩⟩ := visit_error_iff.mp failed
  · obtain ⟨task, found⟩ := configured
    simp [missing] at found
  · exact ⟨_, rfl, trail.closes around⟩
  · have depends (dependency : String) (member : dependency ∈ task.dependencies) :
        Depends tasks name dependency := ⟨task, found, member⟩
    exact visitAll_error tasks defined start (path ++ [name]) leaves name task.dependencies error
      (fun dependency member => trail.extend fresh (depends dependency member))
      (fun dependency member => defined name dependency (depends dependency member)) below
termination_by ((pending tasks path).length, 0)
decreasing_by exact Prod.Lex.left _ _ (pending_snoc_length_lt found fresh)

theorem visitAll_error (tasks : List Task) (defined : Defined tasks) (start : String)
    (path leaves : List String) (owner : String) (dependencies : List String) (error : FlowError)
    (trails : ∀ dependency ∈ dependencies, Trail tasks start path dependency)
    (configured : ∀ dependency ∈ dependencies, ∃ task, Task.find? tasks dependency = some task)
    (failed : visitAll tasks path leaves owner dependencies = .error error) :
    ∃ cycle, error = .cycle cycle ∧ IsLoop tasks start cycle := by
  cases dependencies with
  | nil => simp [visitAll] at failed
  | cons dependency rest =>
      have trail := trails dependency List.mem_cons_self
      have known := configured dependency List.mem_cons_self
      have others (later : String) (member : later ∈ rest) := trails later (List.mem_cons_of_mem _ member)
      have further (later : String) (member : later ∈ rest) := configured later (List.mem_cons_of_mem _ member)
      obtain ⟨missing, -⟩ | ⟨task, -, ⟨-, behind⟩ | ⟨-, here | ⟨between, -, behind⟩⟩⟩ :=
        visitAll_cons_error_iff.mp failed
      · obtain ⟨task, found⟩ := known
        simp [missing] at found
      · exact visitAll_error tasks defined start path _ owner rest error others further behind
      · exact visit_error tasks defined start path leaves dependency error trail known here
      · exact visitAll_error tasks defined start path between owner rest error others further behind
termination_by ((pending tasks path).length, dependencies.length + 1)
decreasing_by
  all_goals subst_vars; simp_wf
  all_goals exact Prod.Lex.right _ (by simp)
end

end Resolve

theorem Resolve.adds_of_mem {tasks : List Task} {path dependencies : List String} {parts : List (List String)}
    (adds : List.Forall₂ (Resolve.Adds tasks path) dependencies parts) {dependency : String}
    (member : dependency ∈ dependencies) : ∃ part, Resolve.Adds tasks path dependency part := by
  induction adds with
  | nil => simp at member
  | cons first _ ih =>
      rcases List.mem_cons.mp member with same | behind
      · exact ⟨_, same ▸ first⟩
      · exact ih behind

section Failure

variable {tasks : List Task} {name : String}

theorem resolve_error (defined : Defined tasks) (configured : ∃ task, Task.find? tasks name = some task)
    {error : FlowError} (failed : resolve tasks name = .error error) :
    ∃ path, error = .cycle path ∧ IsLoop tasks name path :=
  Resolve.visit_error tasks defined name [] [] name error (.start tasks name) configured failed

theorem resolve_ok_of_depends {dependency : String} {leaves : List String}
    (resolved : resolve tasks name = .ok leaves) (depends : Depends tasks name dependency) :
    ∃ below, resolve tasks dependency = .ok below := by
  obtain ⟨task, parts, found, adds, -⟩ := Resolve.visit_independent tasks [] [] name leaves resolved
  obtain ⟨owner, found', member⟩ := depends
  cases Option.some.inj (found.symm.trans found')
  obtain ⟨part, target, here, ⟨isSource, -⟩ | ⟨-, anywhere⟩⟩ := Resolve.adds_of_mem adds member
  · have nothing := Task.dependencies_of_source isSource
    refine ⟨[], Resolve.visit_ok_iff.mpr ⟨target, here, by simp, ?_⟩⟩
    rw [nothing]
    exact Resolve.visitAll_nil_iff.mpr rfl
  · exact ⟨_, anywhere [] [] (List.nil_subset _)⟩

theorem resolve_ok_of_reaches {target : String} {leaves : List String}
    (resolved : resolve tasks name = .ok leaves)
    (reached : Relation.ReflTransGen (Depends tasks) name target) :
    ∃ below, resolve tasks target = .ok below := by
  induction reached with
  | refl => exact ⟨leaves, resolved⟩
  | tail _ last ih =>
      obtain ⟨between, above⟩ := ih
      exact resolve_ok_of_depends above last

theorem IsLoop.around {path : List String} (loop : IsLoop tasks name path) :
    ∃ looped, Relation.ReflTransGen (Depends tasks) name looped ∧ Reaches tasks looped looped := by
  obtain ⟨long, closed, -, linked, reached⟩ := loop
  match path with
  | [] => simp at long
  | [_] => simp at long
  | first :: second :: rest =>
      have back : first = (second :: rest).getLast (List.cons_ne_nil _ _) := by
        simpa [List.getLast?_eq_some_getLast] using closed
      have onward : ∀ passed ∈ second :: rest, Relation.ReflTransGen (Depends tasks) second passed :=
        linked.tail.induction _ _ (fun _ _ depends passed => passed.tail depends) fun _ => .refl
      refine ⟨first, reached first List.mem_cons_self, ?_⟩
      have around := onward _ (List.getLast_mem (List.cons_ne_nil second rest))
      rw [← back] at around
      exact .head' (List.isChain_cons_cons.mp linked).1 around

theorem resolve_fails_iff (defined : Defined tasks)
    (configured : ∃ task, Task.find? tasks name = some task) :
    (∃ path, resolve tasks name = .error (.cycle path)) ↔
      ∃ looped, Relation.ReflTransGen (Depends tasks) name looped ∧ Reaches tasks looped looped := by
  constructor
  · rintro ⟨path, failed⟩
    obtain ⟨loop, same, isLoop⟩ := resolve_error defined configured failed
    exact isLoop.around
  · rintro ⟨looped, reached, around⟩
    cases resolved : resolve tasks name with
    | ok leaves =>
        obtain ⟨below, there⟩ := resolve_ok_of_reaches resolved reached
        exact absurd around (not_reaches_self_of_resolve there)
    | error error =>
        obtain ⟨loop, rfl, -⟩ := resolve_error defined configured resolved
        exact ⟨loop, rfl⟩

end Failure

namespace Resolve

def expandAll (tasks : List Task)
    (expand : List String → String → Option (Except FlowError (List String))) (owner : String) :
    List String → List String → Option (Except FlowError (List String))
  | leaves, [] => some (.ok leaves)
  | leaves, dependency :: rest =>
      match Task.find? tasks dependency with
      | none => some (.error (.unknownReference owner dependency))
      | some task =>
          if task.isSource then expandAll tasks expand owner (addLeaf leaves dependency) rest
          else match expand leaves dependency with
            | some (.ok leaves) => expandAll tasks expand owner leaves rest
            | other => other

def visitWithin (tasks : List Task) :
    Nat → List String → List String → String → Option (Except FlowError (List String))
  | 0, _, _, _ => none
  | limit + 1, path, leaves, name =>
      match Task.find? tasks name with
      | none => some (.error (.unknownTask name))
      | some task =>
          if name ∈ path then some (.error (.cycle (cycleAt path name)))
          else expandAll tasks (visitWithin tasks limit (path ++ [name])) name leaves task.dependencies

theorem expandAll_eq_visitAll {tasks : List Task} {path : List String}
    {expand : List String → String → Option (Except FlowError (List String))}
    (same : ∀ leaves name, expand leaves name = some (visit tasks path leaves name)) (owner : String)
    (leaves dependencies : List String) :
    expandAll tasks expand owner leaves dependencies =
      some (visitAll tasks path leaves owner dependencies) := by
  induction dependencies generalizing leaves with
  | nil => rw [expandAll, visitAll]
  | cons dependency rest ih =>
      rw [expandAll, visitAll]
      cases Task.find? tasks dependency with
      | none => rfl
      | some task =>
          by_cases isSource : task.isSource = true
          · simp only [isSource, if_true, ih]
          · simp only [isSource, same]
            cases visit tasks path leaves dependency with
            | error error => rfl
            | ok between => exact ih between

theorem visitWithin_eq_visit {tasks : List Task} (limit : Nat) (path leaves : List String) (name : String)
    (enough : (pending tasks path).length < limit) :
    visitWithin tasks limit path leaves name = some (visit tasks path leaves name) := by
  induction limit generalizing path leaves name with
  | zero => omega
  | succ limit ih =>
      rw [visit]
      split
      · rename_i missing
        simp [visitWithin, missing]
      · rename_i task found
        by_cases around : name ∈ path
        · simp [visitWithin, found, around]
        · have fewer := pending_snoc_length_lt found around
          have below (leaves : List String) (other : String) := ih (path ++ [name]) leaves other (by omega)
          simp [visitWithin, found, around, expandAll_eq_visitAll below]

theorem visitWithin_eq_resolve (tasks : List Task) (name : String) :
    visitWithin tasks (tasks.length + 1) [] [] name = some (resolve tasks name) := by
  apply visitWithin_eq_visit
  have few := List.length_filter_le (fun task : Task => decide (task.name ∉ [])) tasks
  exact Nat.lt_succ_of_le few

theorem resolve_of_visitWithin {tasks : List Task} {name : String}
    {result : Except FlowError (List String)}
    (computed : visitWithin tasks (tasks.length + 1) [] [] name = some result) :
    resolve tasks name = result :=
  Option.some.inj ((visitWithin_eq_resolve tasks name).symm.trans computed)

end Resolve

/-- Where every reference is defined, a walk comes to an end without nesting deeper than there are
tasks. It finds a cycle exactly when one lies at or below the task where it began, the cycle that it
reports is one of these, and it fails for no other reason. -/
theorem resolve_finds_cycle {tasks : List Task} {name : String} (defined : Defined tasks)
    (configured : ∃ task, Task.find? tasks name = some task) :
    Resolve.visitWithin tasks (tasks.length + 1) [] [] name = some (resolve tasks name) ∧
      ((∃ path, resolve tasks name = .error (.cycle path)) ↔
        ∃ looped, Relation.ReflTransGen (Depends tasks) name looped ∧ Reaches tasks looped looped) ∧
      ∀ error, resolve tasks name = .error error →
        ∃ path, error = .cycle path ∧ IsLoop tasks name path :=
  ⟨Resolve.visitWithin_eq_resolve tasks name, resolve_fails_iff defined configured,
    fun _ => resolve_error defined configured⟩

def loopedTransforms : List Task := [
  .source ⟨"clicks", [], none, none⟩,
  .feature ⟨"seen", ["clicks"], none, []⟩,
  .transform ⟨"outer", ["seen"], ["inner"], none, [], []⟩,
  .transform ⟨"inner", [], ["outer"], none, [], []⟩,
  .service ⟨"top", ["clicks", "seen", "outer"], [], none, none, false, none⟩]

theorem looped_transforms_defined : Defined loopedTransforms := by
  have known : ∀ task ∈ loopedTransforms, ∀ dependency ∈ task.dependencies,
      (Task.find? loopedTransforms dependency).isSome = true := by decide
  rintro name dependency ⟨task, found, member⟩
  exact Option.isSome_iff_exists.mp (known task (Task.mem_of_find? found) dependency member)

theorem looped_transforms_cycle :
    Defined loopedTransforms ∧
      resolve loopedTransforms "top" = .error (.cycle ["outer", "inner", "outer"]) ∧
      IsLoop loopedTransforms "top" ["outer", "inner", "outer"] := by
  have resolved : resolve loopedTransforms "top" = .error (.cycle ["outer", "inner", "outer"]) :=
    Resolve.resolve_of_visitWithin (by decide)
  have configured : ∃ task, Task.find? loopedTransforms "top" = some task := ⟨_, rfl⟩
  obtain ⟨-, -, real⟩ := resolve_finds_cycle looped_transforms_defined configured
  obtain ⟨path, same, loop⟩ := real _ resolved
  cases same
  exact ⟨looped_transforms_defined, resolved, loop⟩

end Curator
