import Curator.Proofs.Graph.Accepted
import Curator.Registry
/-!
What a registry has for the tasks of its graph. Who carries out a task is told by the offer alone: whatever worker a
registry has stands for the task of its name, and only sources can be without one.
-/

set_option autoImplicit false

namespace Curator

inductive Worker.Serves : Worker → Task → Prop
  | inline (definition : Source) (rows : List Row) : Serves (.inline definition rows) (.source definition)
  | configured (task : Task) : Serves (.configured task) task
  | replaced (replacement : Replacement) (task : Task) (same : replacement.name = task.name) :
      Serves (.replaced replacement) task

def Worker.IsBuiltIn : Worker → Prop
  | .replaced _ => False
  | .inline _ _ | .configured _ => True

/-! Of the replacements of a task the last one counts. -/

namespace Offer

variable {offer : Offer} {replacements : List Replacement} {replacement : Replacement} {task : String}

def InForce (offer : Offer) (replacement : Replacement) : Prop :=
  ∃ before after, offer.replacements = before ++ replacement :: after ∧ ∀ later ∈ after, later.name ≠ replacement.name

theorem InForce.mem (counts : offer.InForce replacement) : replacement ∈ offer.replacements := by
  obtain ⟨before, after, split, -⟩ := counts
  exact split ▸ List.mem_append_right before List.mem_cons_self

theorem latest_sublist (replacements : List Replacement) :
    (latest replacements).Sublist replacements := by
  induction replacements with
  | nil => exact List.Sublist.refl []
  | cons first rest ih =>
      rw [latest]
      by_cases later : rest.any (·.name = first.name) = true
      · rw [if_pos later]
        exact ih.cons first
      · rw [if_neg later]
        exact ih.cons_cons first

theorem mem_latest_iff :
    replacement ∈ latest replacements ↔ ∃ before after, replacements = before ++ replacement :: after ∧
      ∀ later ∈ after, later.name ≠ replacement.name := by
  induction replacements with
  | nil => simp [latest]
  | cons first rest ih =>
      rw [latest]
      constructor
      · intro member
        split at member
        · obtain ⟨before, after, rfl, last⟩ := ih.mp member
          exact ⟨first :: before, after, rfl, last⟩
        · rename_i single
          rcases List.mem_cons.mp member with rfl | behind
          · exact ⟨[], rest, rfl, by simpa using single⟩
          · obtain ⟨before, after, rfl, last⟩ := ih.mp behind
            exact ⟨first :: before, after, rfl, last⟩
      · rintro ⟨before, after, split, last⟩
        cases before with
        | nil =>
            cases split
            rw [if_neg (by simpa using last)]
            exact List.mem_cons_self
        | cons head before =>
            cases split
            have behind := ih.mpr ⟨before, after, rfl, last⟩
            split
            · exact behind
            · exact List.mem_cons_of_mem _ behind

theorem nodup_latest (replacements : List Replacement) : ((latest replacements).map Replacement.name).Nodup := by
  induction replacements with
  | nil => exact List.nodup_nil
  | cons first rest ih =>
      rw [latest]
      split
      · exact ih
      · rename_i single
        refine List.nodup_cons.mpr ⟨fun again => ?_, ih⟩
        obtain ⟨other, member, same⟩ := List.mem_map.mp again
        have apart : ∀ other ∈ rest, other.name ≠ first.name := by simpa using single
        exact apart other ((latest_sublist rest).subset member) same

theorem replacement?_eq_some_iff :
    offer.replacement? task = some replacement ↔ offer.InForce replacement ∧ replacement.name = task := by
  rw [InForce, ← mem_latest_iff, replacement?]
  constructor
  · intro found
    exact ⟨List.mem_of_find?_eq_some found, by simpa using List.find?_some found⟩
  · rintro ⟨member, rfl⟩
    obtain ⟨other, found⟩ : ∃ other, (latest offer.replacements).find? (·.name = replacement.name) = some other :=
      Option.isSome_iff_exists.mp (List.find?_isSome.mpr ⟨replacement, member, by simp⟩)
    have named : other.name = replacement.name := by simpa using List.find?_some found
    have same : other = replacement :=
      List.inj_on_of_nodup_map (nodup_latest _) (List.mem_of_find?_eq_some found) member named
    exact same ▸ found

theorem exists_latest (offered : replacement ∈ replacements) :
    ∃ last ∈ latest replacements, last.name = replacement.name := by
  induction replacements generalizing replacement with
  | nil => cases offered
  | cons first rest ih =>
      rw [latest]
      split
      · rename_i again
        rcases List.mem_cons.mp offered with rfl | behind
        · obtain ⟨other, member, same⟩ := List.any_eq_true.mp again
          obtain ⟨last, counted, named⟩ := ih member
          exact ⟨last, counted, named.trans (of_decide_eq_true same)⟩
        · exact ih behind
      · rcases List.mem_cons.mp offered with rfl | behind
        · exact ⟨replacement, List.mem_cons_self, rfl⟩
        · obtain ⟨last, member, same⟩ := ih behind
          exact ⟨last, List.mem_cons_of_mem _ member, same⟩

theorem replacement?_eq_none_iff :
    offer.replacement? task = none ↔ ∀ replacement ∈ offer.replacements, replacement.name ≠ task := by
  rw [replacement?, List.find?_eq_none]
  constructor
  · intro absent replacement offered named
    obtain ⟨last, member, same⟩ := exists_latest offered
    simpa [same, named] using absent last member
  · intro unreplaced replacement member
    simpa using unreplaced replacement ((latest_sublist offer.replacements).subset member)

end Offer

namespace Registry

def IsBuiltIn (registry : Registry) : Prop :=
  ∀ name worker, registry.worker? name = some worker → worker.IsBuiltIn

inductive Provides (offer : Offer) : Task → Option Worker → Prop
  | replaced {task : Task} {replacement : Replacement} (counts : offer.InForce replacement)
      (named : replacement.name = task.name) : Provides offer task (some (.replaced replacement))
  | backed {definition : Source} (unreplaced : ∀ replacement ∈ offer.replacements, replacement.name ≠ definition.name)
      (offered : definition.name ∈ offer.sources) :
      Provides offer (.source definition) (some (.configured (.source definition)))
  | inline {definition : Source} {rows : List Row}
      (unreplaced : ∀ replacement ∈ offer.replacements, replacement.name ≠ definition.name)
      (unoffered : definition.name ∉ offer.sources) (own : definition.rows = some rows) :
      Provides offer (.source definition) (some (.inline definition rows))
  | outside {definition : Source} (unreplaced : ∀ replacement ∈ offer.replacements, replacement.name ≠ definition.name)
      (unoffered : definition.name ∉ offer.sources) (nothing : definition.rows = none) :
      Provides offer (.source definition) none
  | configured {task : Task} (unreplaced : ∀ replacement ∈ offer.replacements, replacement.name ≠ task.name)
      (inner : task.isSource = false) : Provides offer task (some (.configured task))

theorem provides_of_worker {graph : Graph} {offer : Offer} {task : Task} {first : Option Worker}
    (provided : Registry.worker graph offer task = .ok first) : Provides offer task first := by
  cases replaced : offer.replacement? task.name with
  | some replacement =>
      simp only [worker, replaced, Except.ok.injEq] at provided
      subst provided
      obtain ⟨counts, named⟩ := Offer.replacement?_eq_some_iff.mp replaced
      exact .replaced counts named
  | none =>
      have unreplaced := Offer.replacement?_eq_none_iff.mp replaced
      simp only [worker, replaced] at provided
      cases task with
      | source definition =>
          dsimp only at provided
          split at provided
          · cases provided
            exact .backed unreplaced ‹_›
          · rename_i unoffered
            cases provided
            cases own : definition.rows with
            | none => exact .outside unreplaced unoffered own
            | some rows => exact .inline unreplaced unoffered own
      | experiment definition =>
          obtain ⟨-, -, same⟩ := bind_ok_iff.mp provided
          cases pure_ok_iff.mp same
          exact .configured unreplaced rfl
      | feature | transform | service | layer | scene =>
          cases provided
          exact .configured unreplaced rfl

theorem Provides.serves {offer : Offer} {task : Task} {worker : Worker} (provides : Provides offer task (some worker)) :
    worker.Serves task := by
  cases provides with
  | replaced counts named => exact .replaced _ _ named
  | inline => exact .inline _ _
  | backed | configured => exact .configured _

theorem Provides.isSource {offer : Offer} {task : Task} (provides : Provides offer task none) : task.isSource = true := by
  cases provides
  rfl

theorem Provides.isBuiltIn {offer : Offer} {task : Task} {worker : Worker} (unreplaced : offer.replacements = [])
    (provides : Provides offer task (some worker)) : worker.IsBuiltIn := by
  cases provides with
  | replaced counts => exact nomatch unreplaced ▸ counts.mem
  | inline | backed | configured => trivial

theorem workersOf_cons_ok_iff {graph : Graph} {offer : Offer} {task : Task} {rest : List Task}
    {workers : List (String × Worker)} :
    workersOf graph offer (task :: rest) = .ok workers ↔
      ∃ first others, Registry.worker graph offer task = .ok first ∧ workersOf graph offer rest = .ok others ∧
        workers = (first.map fun worker => (task.name, worker)).toList ++ others := by
  rw [workersOf, bind_ok_iff]
  refine exists_congr fun first => ?_
  simp only [bind_ok_iff, pure_ok_iff, exists_and_left]
  refine and_congr_right fun _ => exists_congr fun others => and_congr_right fun _ => ?_
  cases first <;> exact eq_comm

theorem workersOf_ok_iff {graph : Graph} {offer : Offer} {tasks : List Task} :
    (∃ workers, workersOf graph offer tasks = .ok workers) ↔
      ∀ task ∈ tasks, ∃ first, Registry.worker graph offer task = .ok first := by
  induction tasks with
  | nil => simp [workersOf]
  | cons task rest ih =>
      rw [List.forall_mem_cons, ← ih]
      simp only [workersOf_cons_ok_iff]
      constructor
      · rintro ⟨-, first, others, here, behind, -⟩
        exact ⟨⟨first, here⟩, others, behind⟩
      · rintro ⟨⟨first, here⟩, others, behind⟩
        exact ⟨_, first, others, here, behind, rfl⟩

theorem lookup_workersOf {graph : Graph} {offer : Offer} {tasks : List Task}
    (distinct : (tasks.map Task.name).Nodup) {workers : List (String × Worker)}
    (provided : workersOf graph offer tasks = .ok workers) (name : String) :
    (Task.find? tasks name = none → workers.lookup name = none) ∧
      ∀ task, Task.find? tasks name = some task →
        Registry.worker graph offer task = .ok (workers.lookup name) := by
  induction tasks generalizing workers with
  | nil =>
      cases provided
      exact ⟨fun _ => rfl, fun _ found => nomatch found⟩
  | cons head rest ih =>
      obtain ⟨first, others, here, behind, rfl⟩ := workersOf_cons_ok_iff.mp provided
      obtain ⟨single, others'⟩ := List.nodup_cons.mp distinct
      have further := ih others' behind
      by_cases same : head.name = name
      · have none : Task.find? rest name = none := by
          simp only [Task.find?, List.find?_eq_none, decide_eq_true_eq]
          exact fun task member again => single (List.mem_map.mpr ⟨task, member, again.trans same.symm⟩)
        have own : ((first.map fun worker => (head.name, worker)).toList ++ others).lookup name = first := by
          cases first with
          | none => exact further.1 none
          | some worker => simp [same]
        rw [own]
        refine ⟨fun absent => ?_, fun task found => ?_⟩
        · simp [Task.find?, same] at absent
        · have equal : head = task := by simpa [Task.find?, same] using found
          exact equal ▸ here
      · have past : ((first.map fun worker => (head.name, worker)).toList ++ others).lookup name =
            others.lookup name := by
          cases first with
          | none => rfl
          | some worker =>
              have apart : (name == head.name) = false := by simpa using Ne.symm same
              simp [List.lookup_cons, apart]
        have find : Task.find? (head :: rest) name = Task.find? rest name := by simp [Task.find?, same]
        rw [past, find]
        exact further

structure Staffed (registry : Registry) : Prop where
  sound : registry.graph.Sound
  serves : ∀ name worker, registry.worker? name = some worker →
    ∃ task, registry.graph.lookup name = some task ∧ worker.Serves task
  provided : ∀ name task, registry.graph.lookup name = some task → task.isSource = false →
    ∃ worker, registry.worker? name = some worker

theorem build_eq_ok_iff {graph : Graph} {offer : Offer} {registry : Registry} :
    build graph offer = .ok registry ↔ (Offer.latest offer.replacements).forM (checkReplacement graph) = .ok () ∧
      ∃ workers, workersOf graph offer graph.tasks = .ok workers ∧ registry = ⟨graph, workers⟩ := by
  rw [build, bind_ok_iff]
  constructor
  · rintro ⟨⟨⟩, passed, later⟩
    obtain ⟨workers, provided, same⟩ := bind_ok_iff.mp later
    exact ⟨passed, workers, provided, (pure_ok_iff.mp same).symm⟩
  · rintro ⟨passed, workers, provided, rfl⟩
    exact ⟨(), passed, bind_ok_iff.mpr ⟨workers, provided, rfl⟩⟩

theorem graph_of_build {graph : Graph} {offer : Offer} {registry : Registry}
    (built : build graph offer = .ok registry) : registry.graph = graph := by
  obtain ⟨-, workers, -, rfl⟩ := build_eq_ok_iff.mp built
  rfl

theorem worker?_of_build {graph : Graph} {offer : Offer} {registry : Registry} (sound : graph.Sound)
    (built : build graph offer = .ok registry) (name : String) :
    (graph.lookup name = none → registry.worker? name = none) ∧
      ∀ task, graph.lookup name = some task → Registry.worker graph offer task = .ok (registry.worker? name) := by
  obtain ⟨-, workers, provided, rfl⟩ := build_eq_ok_iff.mp built
  exact lookup_workersOf sound.distinct provided name

theorem provides_of_build {graph : Graph} {offer : Offer} {registry : Registry} (sound : graph.Sound)
    (built : build graph offer = .ok registry) {name : String} {task : Task} (found : graph.lookup name = some task) :
    Provides offer task (registry.worker? name) :=
  provides_of_worker ((worker?_of_build sound built name).2 task found)

theorem task_of_build {graph : Graph} {offer : Offer} {registry : Registry} (sound : graph.Sound)
    (built : build graph offer = .ok registry) {name : String} {worker : Worker}
    (carried : registry.worker? name = some worker) :
    ∃ task, graph.lookup name = some task ∧ Provides offer task (some worker) := by
  cases found : graph.lookup name with
  | none => exact nomatch ((worker?_of_build sound built name).1 found).symm.trans carried
  | some task => exact ⟨task, rfl, carried ▸ provides_of_build sound built found⟩

theorem staffed_of_build {graph : Graph} {offer : Offer} {registry : Registry} (sound : graph.Sound)
    (built : build graph offer = .ok registry) : registry.Staffed := by
  have same : registry.graph = graph := graph_of_build built
  subst same
  refine ⟨sound, ?_, ?_⟩
  · intro name worker carried
    obtain ⟨task, found, provides⟩ := task_of_build sound built carried
    exact ⟨task, found, provides.serves⟩
  · intro name task found inner
    have provides := provides_of_build sound built found
    cases carried : registry.worker? name with
    | some worker => exact ⟨worker, rfl⟩
    | none => simp [(carried ▸ provides : Provides offer task none).isSource] at inner

theorem isBuiltIn_of_build {graph : Graph} {offer : Offer} {registry : Registry} (sound : graph.Sound)
    (unreplaced : offer.replacements = []) (built : build graph offer = .ok registry) :
    registry.IsBuiltIn := by
  intro name worker carried
  obtain ⟨task, -, provides⟩ := task_of_build sound built carried
  exact provides.isBuiltIn unreplaced

theorem configured_of_unreplaced {graph : Graph} {offer : Offer} {registry : Registry} (sound : graph.Sound)
    (built : build graph offer = .ok registry) {name : String}
    (unreplaced : ∀ replacement ∈ offer.replacements, replacement.name ≠ name) {task : Task}
    (found : graph.lookup name = some task) (inner : task.isSource = false) :
    registry.worker? name = some (.configured task) := by
  have provides := provides_of_build sound built found
  generalize registry.worker? name = carried at provides
  cases provides with
  | replaced counts named => exact absurd (named.trans (Task.name_of_find? found)) (unreplaced _ counts.mem)
  | backed | inline | outside => cases inner
  | configured => rfl

end Registry

end Curator
