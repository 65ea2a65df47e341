import Curator.Proofs.Attempts
import Curator.Proofs.Graph.Leaves
import Mathlib.Data.List.Nodup
/-!
What the checks of a flow leave behind in its graph: distinct names, definitions without a fault,
references to tasks of the right kind, and for every task the leaves that the walk finds, which
rules out cycles.
-/

set_option autoImplicit false

namespace Curator

namespace Graph

structure Sound (graph : Graph) : Prop where
  distinct : (graph.tasks.map Task.name).Nodup
  faultless : ∀ task ∈ graph.tasks, task.fault? = none
  admitted : ∀ task ∈ graph.tasks, ∀ reference ∈ task.references,
    ∃ target, graph.lookup reference.2 = some target ∧ reference.1.admits target = true
  resolved : ∀ task ∈ graph.tasks, ∃ leaves,
    resolve graph.tasks task.name = .ok leaves ∧ graph.reliesOn? task.name = some leaves

theorem firstRepeated?_eq_none_iff {seen names : List String} :
    firstRepeated? seen names = none ↔ names.Nodup ∧ ∀ name ∈ names, name ∉ seen := by
  induction names generalizing seen with
  | nil => simp [firstRepeated?]
  | cons head tail ih =>
      by_cases repeated : head ∈ seen
      · simp [firstRepeated?, repeated]
      · simp only [firstRepeated?, if_neg repeated, ih, List.nodup_cons, List.mem_cons, not_or]
        constructor
        · rintro ⟨distinct, apart⟩
          refine ⟨⟨fun member => (apart head member).1 rfl, distinct⟩, ?_⟩
          rintro name (same | member)
          · exact same ▸ repeated
          · exact (apart name member).2
        · rintro ⟨⟨missing, distinct⟩, apart⟩
          refine ⟨distinct, fun name member => ⟨?_, apart name (.inr member)⟩⟩
          exact fun same => missing (same ▸ member)

theorem reliances_lookup {tasks listed : List Task} {reliances : List (String × List String)}
    (resolved : List.Forall₂ (fun task reliance =>
      (do return (task.name, ← resolve tasks task.name)) = .ok reliance) listed reliances)
    (task : Task) (member : task ∈ listed) :
    ∃ leaves, resolve tasks task.name = .ok leaves ∧ reliances.lookup task.name = some leaves := by
  induction resolved with
  | nil => simp at member
  | @cons head reliance tail rest first _ ih =>
      obtain ⟨leaves, found, same⟩ := bind_ok_iff.mp first
      cases pure_ok_iff.mp same
      -- Whichever task of the name comes first, its leaves are those of the name.
      by_cases named : task.name = head.name
      · exact ⟨leaves, named ▸ found, by simp [named]⟩
      · have behind : task ∈ tail := by
          rcases List.mem_cons.mp member with equal | behind
          · exact absurd (congrArg Task.name equal) named
          · exact behind
        obtain ⟨below, further, listed⟩ := ih behind
        have apart : (task.name == head.name) = false := by simpa using named
        exact ⟨below, further, by simpa [List.lookup_cons, apart] using listed⟩

theorem reference_admitted {tasks : List Task} {owner : String} {reference : Role × String}
    (passed : Task.referenceFault? tasks owner reference = none) :
    ∃ target, Task.find? tasks reference.2 = some target ∧ reference.1.admits target = true := by
  rw [Task.referenceFault?] at passed
  split at passed
  · cases passed
  · rename_i target found
    by_cases admitted : reference.1.admits target = true
    · exact ⟨target, found, admitted⟩
    · rw [if_neg admitted] at passed
      cases passed

theorem fault?_eq_none_of_error? {tasks : List Task} {task : Task}
    (passed : Task.error? tasks task = none) :
    task.fault? = none ∧ task.references.findSome? (Task.referenceFault? tasks task.name) = none := by
  rw [Task.error?] at passed
  split at passed
  · cases passed
  · exact ⟨‹_›, passed⟩

theorem ofFlow_ok_iff {flow : Flow} {graph : Graph} :
    ofFlow flow = .ok graph ↔
      duplicate? flow = none ∧ flow.tasks.findSome? (Task.error? flow.tasks) = none ∧
      graph.tasks = flow.tasks ∧ graph.models = flow.models ∧
      List.Forall₂ (fun task reliance =>
        (do return (task.name, ← resolve flow.tasks task.name)) = .ok reliance)
        flow.tasks graph.reliances := by
  rw [ofFlow]
  cases unique : duplicate? flow with
  | some error => simp
  | none =>
      cases flow.tasks.findSome? (Task.error? flow.tasks) with
      | some error => simp
      | none =>
          simp only [Option.orElse_none, true_and, bind_ok_iff, mapM_ok_iff, pure_ok_iff]
          constructor
          · rintro ⟨reliances, resolved, same⟩
            subst same
            exact ⟨rfl, rfl, resolved⟩
          · rintro ⟨tasks, models, resolved⟩
            refine ⟨graph.reliances, resolved, ?_⟩
            rw [← tasks, ← models]

theorem sound_of_ofFlow {flow : Flow} {graph : Graph} (accepted : ofFlow flow = .ok graph) :
    graph.Sound := by
  obtain ⟨unique, checked, tasks, -, resolved⟩ := ofFlow_ok_iff.mp accepted
  have first : firstRepeated? [] (flow.tasks.map Task.name) = none := by
    rw [duplicate?] at unique
    split at unique
    · cases unique
    · assumption
  have clean (task : Task) (member : task ∈ flow.tasks) :=
    fault?_eq_none_of_error? (List.findSome?_eq_none_iff.mp checked task member)
  refine ⟨?_, ?_, ?_, ?_⟩
  · exact tasks ▸ (firstRepeated?_eq_none_iff.mp first).1
  · exact fun task member => (clean task (tasks ▸ member)).1
  · intro task member reference listed
    have passed := List.findSome?_eq_none_iff.mp (clean task (tasks ▸ member)).2 reference listed
    exact reference_admitted (tasks.symm ▸ passed)
  · rw [tasks]
    exact reliances_lookup resolved

section Facts

variable {graph : Graph} (sound : graph.Sound)
include sound

theorem lookup_of_mem {task : Task} (member : task ∈ graph.tasks) :
    graph.lookup task.name = some task := by
  obtain ⟨found, here⟩ := Task.find?_isSome_of_mem member
  have same : found = task :=
    List.inj_on_of_nodup_map sound.distinct (Task.mem_of_find? here) member (Task.name_of_find? here)
  exact same ▸ here

theorem dependency_admitted {name dependency : String} {task : Task} (found : graph.lookup name = some task)
    (listed : dependency ∈ task.dependencies) :
    ∃ reference target, reference ∈ task.references ∧ graph.lookup dependency = some target ∧
      reference.1.admits target = true := by
  rw [← Task.map_snd_references] at listed
  obtain ⟨reference, member, rfl⟩ := List.mem_map.mp listed
  obtain ⟨target, here, admitted⟩ := sound.admitted task (Task.mem_of_find? found) reference member
  exact ⟨reference, target, member, here, admitted⟩

theorem dependency_found {name dependency : String} (depends : Depends graph.tasks name dependency) :
    ∃ task, graph.lookup dependency = some task := by
  obtain ⟨task, found, listed⟩ := depends
  obtain ⟨reference, target, -, here, -⟩ := dependency_admitted sound found listed
  exact ⟨target, here⟩

theorem reached_found {name target : String} (reached : Reaches graph.tasks name target) :
    ∃ task, graph.lookup target = some task := by
  obtain ⟨owner, -, last⟩ := Relation.TransGen.tail'_iff.mp reached
  exact dependency_found sound last

theorem acyclic_of_sound : Acyclic graph.tasks := by
  intro name around
  obtain ⟨task, found⟩ := reached_found sound around
  obtain ⟨leaves, resolved, -⟩ := sound.resolved task (Task.mem_of_find? found)
  rw [Task.name_of_find? found] at resolved
  exact not_reaches_self_of_resolve resolved around

theorem wellFounded_of_sound :
    WellFounded fun dependency name => Depends graph.tasks name dependency := by
  refine Subrelation.wf ?_ (measure (rank graph.tasks)).wf
  intro dependency name depends
  exact rank_lt_of_depends (acyclic_of_sound sound) depends (dependency_found sound depends)

theorem rank_le_size (name : String) : rank graph.tasks name ≤ graph.size := by
  cases found : Task.find? graph.tasks name with
  | none => simp [rank_of_undefined found]
  | some task => exact Nat.le_of_lt (rank_lt_length (acyclic_of_sound sound) ⟨task, found⟩)

theorem mem_reliesOn_iff {name : String} {task : Task} (found : graph.lookup name = some task) :
    ∃ leaves, graph.reliesOn? name = some leaves ∧
      ∀ leaf, leaf ∈ leaves ↔ IsSource graph.tasks leaf ∧ Reaches graph.tasks name leaf := by
  obtain ⟨leaves, resolved, listed⟩ := sound.resolved task (Task.mem_of_find? found)
  rw [Task.name_of_find? found] at resolved listed
  exact ⟨leaves, listed, fun _ => mem_resolve resolved⟩

end Facts

end Graph

end Curator
