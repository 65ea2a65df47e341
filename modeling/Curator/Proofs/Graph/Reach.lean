import Curator.Graph
import Mathlib.Data.List.Chain
import Mathlib.Logic.Relation
/-!
Which tasks a task depends on, directly or through others. Where no task depends on itself, the
number of tasks that a name reaches ranks the names: every dependency ranks below its owner, and no
task ranks as high as there are tasks.
-/

set_option autoImplicit false

namespace Curator

def Depends (tasks : List Task) (name dependency : String) : Prop :=
  ∃ task, Task.find? tasks name = some task ∧ dependency ∈ task.dependencies

abbrev Reaches (tasks : List Task) : String → String → Prop := Relation.TransGen (Depends tasks)

def IsSource (tasks : List Task) (name : String) : Prop :=
  ∃ task, Task.find? tasks name = some task ∧ task.isSource = true

def Acyclic (tasks : List Task) : Prop := ∀ name, ¬ Reaches tasks name name

theorem Task.dependencies_of_source {task : Task} (source : task.isSource = true) :
    task.dependencies = [] := by
  cases task <;> first | rfl | cases source

theorem Task.find?_isSome_of_mem {tasks : List Task} {task : Task} (member : task ∈ tasks) :
    ∃ found, Task.find? tasks task.name = some found := by
  have present : (Task.find? tasks task.name).isSome := by
    rw [Task.find?, List.find?_isSome]
    exact ⟨task, member, by simp⟩
  exact Option.isSome_iff_exists.mp present

theorem not_depends_of_source {tasks : List Task} {name dependency : String}
    (source : IsSource tasks name) : ¬ Depends tasks name dependency := by
  rintro ⟨task, found, member⟩
  obtain ⟨same, found', isSource⟩ := source
  cases Option.some.inj (found.symm.trans found')
  simp [Task.dependencies_of_source isSource] at member

theorem not_reaches_of_source {tasks : List Task} {name target : String}
    (source : IsSource tasks name) : ¬ Reaches tasks name target := by
  intro reached
  obtain ⟨next, first, -⟩ := Relation.TransGen.head'_iff.mp reached
  exact not_depends_of_source source first

theorem reaches_iff {tasks : List Task} {name target : String} {task : Task}
    (found : Task.find? tasks name = some task) :
    Reaches tasks name target ↔
      ∃ dependency ∈ task.dependencies, dependency = target ∨ Reaches tasks dependency target := by
  constructor
  · intro reached
    obtain ⟨next, ⟨owner, found', member⟩, rest⟩ := Relation.TransGen.head'_iff.mp reached
    cases Option.some.inj (found.symm.trans found')
    refine ⟨next, member, ?_⟩
    rcases Relation.reflTransGen_iff_eq_or_transGen.mp rest with same | later
    · exact .inl same.symm
    · exact .inr later
  · rintro ⟨dependency, member, same | later⟩
    · subst same
      exact .single ⟨task, found, member⟩
    · exact .head ⟨task, found, member⟩ later

open Classical in
noncomputable def rank (tasks : List Task) (name : String) : Nat :=
  (tasks.filter fun task => Reaches tasks name task.name).length

theorem rank_lt_of_depends {tasks : List Task} {name dependency : String} (acyclic : Acyclic tasks)
    (depends : Depends tasks name dependency)
    (defined : ∃ task, Task.find? tasks dependency = some task) :
    rank tasks dependency < rank tasks name := by
  classical
  obtain ⟨task, found⟩ := defined
  have named := Task.name_of_find? found
  -- The owner reaches all that the dependency reaches, and the dependency on top of it.
  have narrower : (tasks.filter fun task => Reaches tasks dependency task.name) =
      (tasks.filter fun task => Reaches tasks name task.name).filter
        fun task => Reaches tasks dependency task.name := by
    rw [List.filter_filter]
    apply List.filter_congr
    intro other _
    have below : Reaches tasks dependency other.name → Reaches tasks name other.name := .head depends
    simpa using below
  rw [rank, rank, narrower]
  apply List.length_filter_lt_length_iff_exists.mpr
  refine ⟨task, ?_, ?_⟩
  · simpa [Task.mem_of_find? found, named] using Relation.TransGen.single depends
  · simpa [named] using acyclic dependency

theorem rank_lt_length {tasks : List Task} {name : String} (acyclic : Acyclic tasks)
    (defined : ∃ task, Task.find? tasks name = some task) : rank tasks name < tasks.length := by
  classical
  obtain ⟨task, found⟩ := defined
  apply List.length_filter_lt_length_iff_exists.mpr
  refine ⟨task, Task.mem_of_find? found, ?_⟩
  simpa [Task.name_of_find? found] using acyclic name

theorem length_le_rank {tasks : List Task} (acyclic : Acyclic tasks)
    (defined : ∀ name dependency, Depends tasks name dependency →
      ∃ task, Task.find? tasks dependency = some task)
    {name : String} {below : List String} (linked : (name :: below).IsChain (Depends tasks)) :
    below.length ≤ rank tasks name := by
  induction below generalizing name with
  | nil => exact Nat.zero_le _
  | cons next rest ih =>
      obtain ⟨first, further⟩ := List.isChain_cons_cons.mp linked
      have lower := rank_lt_of_depends acyclic first (defined name next first)
      have behind := ih further
      simp only [List.length_cons]
      omega

theorem rank_of_undefined {tasks : List Task} {name : String}
    (undefined : Task.find? tasks name = none) : rank tasks name = 0 := by
  classical
  rw [rank, List.length_eq_zero_iff, List.filter_eq_nil_iff]
  intro task _
  rw [decide_eq_true_eq]
  intro reached
  obtain ⟨next, ⟨owner, found, -⟩, -⟩ := Relation.TransGen.head'_iff.mp reached
  simp [undefined] at found

end Curator
