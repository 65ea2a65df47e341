import Curator.Proofs.Graph.Accepted
import Curator.Proofs.Graph.Cycle
import Curator.Proofs.Table
/-!
What it takes for a flow to be accepted, said without the checks: names that are distinct,
definitions that are consistent in themselves, references to tasks of a kind that the referring task
can use, and no task that depends on itself.
-/

set_option autoImplicit false

namespace Curator

structure Source.Consistent (source : Source) : Prop where
  typed : source.columns ≠ []
  filtered : ∀ filter, source.filter = some filter → ∃ column ∈ source.columns, column.name = filter.column
  fits : ∀ rows, source.rows = some rows → ∀ row ∈ rows, row.Fits source.columns

def Action.Consistent (action : Action) : Prop :=
  action.operands ≠ [] ∧
    match action.formula with
    | .copy => action.operands.length = 1
    | .sum => action.column.type.isNumeric = true
    | .weightedSum =>
        action.column.type.isNumeric = true ∧ action.weights.length = action.operands.length
    | .concat => action.column.type = .str

def Task.Consistent : Task → Prop
  | .source definition => definition.Consistent
  | .feature definition => definition.inputs ≠ []
  | .transform definition =>
      (definition.features ≠ [] ∨ definition.transforms ≠ []) ∧
        ∀ action ∈ definition.actions, action.Consistent
  | .service _ => True
  | .experiment definition =>
      definition.chain ≠ [] ∧ ∀ ranking, definition.ranking = some ranking → ranking.features ≠ []
  | .layer definition =>
      definition.arms ≠ [] ∧ ∀ arm ∈ definition.arms, arm.ratio.isFinite = true ∧ ¬ arm.ratio < 0
  | .scene definition => definition.chain ≠ []

def Names (tasks : List Task) (demand : Task → Prop) (name : String) : Prop :=
  ∃ target ∈ tasks, target.name = name ∧ demand target

def Task.Supported (tasks : List Task) : Task → Prop
  | .source _ => True
  | .feature definition => ∀ name ∈ definition.inputs, Names tasks (·.kind = .dataService) name
  | .transform definition =>
      (∀ name ∈ definition.features,
          Names tasks (fun target => (∃ source, target = .source source) ∨ ∃ feature, target = .feature feature)
            name) ∧
        ∀ name ∈ definition.transforms, Names tasks (fun target => ∃ inner, target = .transform inner) name
  | .service definition => ∀ name ∈ definition.pulls, Names tasks (·.kind = .dataService) name
  | .experiment definition => ∀ name ∈ definition.chain, Names tasks (·.kind = .service) name
  | .layer definition => ∀ arm ∈ definition.arms, Names tasks (·.kind = .experiment) arm.name
  | .scene definition =>
      ∀ name ∈ definition.chain,
        Names tasks (fun target => target.kind = .layer ∨ target.kind = .experiment ∨ target.kind = .service) name

structure Flow.WellFormed (flow : Flow) : Prop where
  distinctTasks : (flow.tasks.map Task.name).Nodup
  distinctModels : (flow.models.map Model.name).Nodup
  consistent : ∀ task ∈ flow.tasks, task.Consistent
  supported : ∀ task ∈ flow.tasks, task.Supported flow.tasks
  acyclic : Acyclic flow.tasks

/-! The checks of a definition on its own. -/

theorem passes_iff {α : Type} {refused : Prop} [Decidable refused] {reason : α} {others : Option α} :
    (if refused then some reason else others) = none ↔ ¬ refused ∧ others = none := by
  by_cases fails : refused <;> simp [fails]

theorem Action.fault?_eq_none_iff (action : Action) : action.fault? = none ↔ action.Consistent := by
  rw [Action.fault?, Action.Consistent, passes_iff]
  cases action.formula <;> simp [passes_iff]

theorem Source.filterFault?_eq_none_iff (source : Source) :
    source.filterFault? = none ↔
      ∀ filter, source.filter = some filter → ∃ column ∈ source.columns, column.name = filter.column := by
  rw [Source.filterFault?]
  cases source.filter with
  | none => simp
  | some filter => simp

theorem Source.rowFault?_eq_none_iff (source : Source) :
    source.rowFault? = none ↔
      ∀ rows, source.rows = some rows → ∀ row ∈ rows, row.Fits source.columns := by
  rw [Source.rowFault?]
  cases source.rows with
  | none => simp
  | some rows =>
      have fits : (∃ table, Table.ofRows source.name source.columns rows = .ok table) ↔
          ∀ row ∈ rows, row.Fits source.columns := Table.ofRows_ok_iff
      cases made : Table.ofRows source.name source.columns rows with
      | ok table => simpa [made] using fits
      | error error => simpa [made] using fits

theorem Source.fault?_eq_none_iff (source : Source) : source.fault? = none ↔ source.Consistent := by
  have parts : source.fault? = none ↔
      source.columns ≠ [] ∧ source.filterFault? = none ∧ source.rowFault? = none := by
    rw [Source.fault?, passes_iff]
    cases source.filterFault? <;> simp
  rw [parts, Source.filterFault?_eq_none_iff, Source.rowFault?_eq_none_iff]
  exact ⟨fun ⟨typed, filtered, fits⟩ => ⟨typed, filtered, fits⟩,
    fun consistent => ⟨consistent.typed, consistent.filtered, consistent.fits⟩⟩

theorem Task.fault?_eq_none_iff (task : Task) : task.fault? = none ↔ task.Consistent := by
  cases task with
  | source definition => exact definition.fault?_eq_none_iff
  | feature definition => simp [Task.fault?, Task.Consistent]
  | transform definition =>
      simp [Task.fault?, Task.Consistent, passes_iff, Action.fault?_eq_none_iff, imp_iff_not_or]
  | service definition => simp [Task.fault?, Task.Consistent]
  | experiment definition =>
      cases ranked : definition.ranking <;> simp [Task.fault?, Task.Consistent, passes_iff, ranked]
  | layer definition => simp [Task.fault?, Task.Consistent, passes_iff, Arm.hasLegalRatio]
  | scene definition => simp [Task.fault?, Task.Consistent]

/-! The checks of what a definition refers to. -/

theorem Task.find?_iff_mem {tasks : List Task} (distinct : (tasks.map Task.name).Nodup) {name : String}
    {task : Task} : Task.find? tasks name = some task ↔ task ∈ tasks ∧ task.name = name := by
  constructor
  · exact fun found => ⟨Task.mem_of_find? found, Task.name_of_find? found⟩
  · rintro ⟨member, rfl⟩
    obtain ⟨other, found⟩ := Task.find?_isSome_of_mem member
    have same : other = task :=
      List.inj_on_of_nodup_map distinct (Task.mem_of_find? found) member (Task.name_of_find? found)
    exact same ▸ found

theorem Task.referenceFault?_eq_none_iff {tasks : List Task} {owner : String}
    {reference : Role × String} :
    Task.referenceFault? tasks owner reference = none ↔
      ∃ target, Task.find? tasks reference.2 = some target ∧ reference.1.admits target = true := by
  rw [Task.referenceFault?]
  cases Task.find? tasks reference.2 with
  | none => simp
  | some target => by_cases admitted : reference.1.admits target = true <;> simp [admitted]

theorem references_pass_iff {tasks : List Task} (distinct : (tasks.map Task.name).Nodup) (owner : String)
    (role : Role) {demand : Task → Prop} (same : ∀ target, role.admits target = true ↔ demand target)
    (names : List String) :
    (∀ reference ∈ names.map (role, ·), Task.referenceFault? tasks owner reference = none) ↔
      ∀ name ∈ names, Names tasks demand name := by
  simp only [List.forall_mem_map, Task.referenceFault?_eq_none_iff, Task.find?_iff_mem distinct, same,
    Names, and_assoc]

theorem Task.supported_iff {tasks : List Task} (distinct : (tasks.map Task.name).Nodup) (task : Task)
    (owner : String) :
    (∀ reference ∈ task.references, Task.referenceFault? tasks owner reference = none) ↔
      task.Supported tasks := by
  cases task with
  | source definition => simp [Task.references, Task.Supported]
  | feature definition =>
      refine references_pass_iff distinct owner .dataService ?_ definition.inputs
      intro target
      cases target <;> simp [Role.admits, Task.kind]
  | transform definition =>
      rw [Task.references, List.forall_mem_append, Task.Supported]
      refine and_congr (references_pass_iff distinct owner .sourceOrFeature ?_ definition.features)
        (references_pass_iff distinct owner .transform ?_ definition.transforms)
      · intro target
        cases target <;> simp [Role.admits]
      · intro target
        cases target <;> simp [Role.admits]
  | service definition =>
      refine references_pass_iff distinct owner .dataService ?_ definition.pulls
      intro target
      cases target <;> simp [Role.admits, Task.kind]
  | experiment definition =>
      refine references_pass_iff distinct owner .service ?_ definition.chain
      intro target
      cases target <;> simp [Role.admits, Task.kind]
  | layer definition =>
      have arms : (Task.layer definition).references =
          (definition.arms.map Arm.name).map (Role.experiment, ·) := by simp [Task.references]
      rw [Task.Supported, arms, ← List.forall_mem_map]
      refine references_pass_iff distinct owner .experiment ?_ (definition.arms.map Arm.name)
      intro target
      cases target <;> simp [Role.admits, Task.kind]
  | scene definition =>
      refine references_pass_iff distinct owner .stage ?_ definition.chain
      intro target
      cases target <;> simp [Role.admits, Task.kind]

theorem Task.error?_eq_none_iff {tasks : List Task} (distinct : (tasks.map Task.name).Nodup) (task : Task) :
    Task.error? tasks task = none ↔ task.Consistent ∧ task.Supported tasks := by
  rw [← Task.fault?_eq_none_iff, ← Task.supported_iff distinct task task.name, Task.error?]
  cases task.fault? with
  | some fault => simp
  | none => simp

namespace Graph

theorem duplicate?_eq_none_iff {flow : Flow} :
    duplicate? flow = none ↔
      (flow.tasks.map Task.name).Nodup ∧ (flow.models.map Model.name).Nodup := by
  have tasks : firstRepeated? [] (flow.tasks.map Task.name) = none ↔ (flow.tasks.map Task.name).Nodup := by
    simp [firstRepeated?_eq_none_iff]
  have models : firstRepeated? [] (flow.models.map Model.name) = none ↔
      (flow.models.map Model.name).Nodup := by
    simp [firstRepeated?_eq_none_iff]
  rw [← tasks, ← models, duplicate?]
  cases firstRepeated? [] (flow.tasks.map Task.name) <;> simp

end Graph

def Flow.refusal? (flow : Flow) : Option FlowError :=
  (Graph.duplicate? flow).orElse fun _ => flow.tasks.findSome? (Task.error? flow.tasks)

namespace Graph

theorem refusal?_eq_none_iff {flow : Flow} :
    flow.refusal? = none ↔
      duplicate? flow = none ∧ ∀ task ∈ flow.tasks, Task.error? flow.tasks task = none := by
  rw [Flow.refusal?, ← List.findSome?_eq_none_iff]
  cases duplicate? flow <;> simp

theorem defined_of_checks {tasks : List Task} (checked : ∀ task ∈ tasks, Task.error? tasks task = none) :
    Defined tasks := by
  rintro name dependency ⟨task, found, member⟩
  have clean := (fault?_eq_none_of_error? (checked task (Task.mem_of_find? found))).2
  rw [← Task.map_snd_references] at member
  obtain ⟨reference, listed, rfl⟩ := List.mem_map.mp member
  obtain ⟨target, here, -⟩ := reference_admitted (List.findSome?_eq_none_iff.mp clean reference listed)
  exact ⟨target, here⟩

theorem ofFlow_error {flow : Flow} {error : FlowError} (refused : ofFlow flow = .error error) :
    flow.refusal? = some error ∨
      (flow.refusal? = none ∧ ∃ task ∈ flow.tasks, resolve flow.tasks task.name = .error error) := by
  simp only [ofFlow] at refused
  split at refused
  · rename_i early found
    cases refused
    exact .inl found
  · rename_i passed
    refine .inr ⟨passed, ?_⟩
    rcases bind_error_iff.mp refused with walk | ⟨reliances, -, impossible⟩
    · obtain ⟨task, member, failed⟩ := mapM_error walk
      rcases bind_error_iff.mp failed with unresolved | ⟨leaves, -, impossible⟩
      · exact ⟨task, member, unresolved⟩
      · cases impossible
    · cases impossible

theorem refusal?_of_ofFlow {flow : Flow} {graph : Graph} (accepted : ofFlow flow = .ok graph) :
    flow.refusal? = none := by
  obtain ⟨unique, checked, -, -, -⟩ := ofFlow_ok_iff.mp accepted
  exact refusal?_eq_none_iff.mpr ⟨unique, List.findSome?_eq_none_iff.mp checked⟩

theorem cycle_of_checks {flow : Flow} (passed : flow.refusal? = none) {task : Task}
    (member : task ∈ flow.tasks) {error : FlowError} (failed : resolve flow.tasks task.name = .error error) :
    ∃ path, error = .cycle path ∧ IsLoop flow.tasks task.name path :=
  resolve_error (defined_of_checks (refusal?_eq_none_iff.mp passed).2) (Task.find?_isSome_of_mem member) failed

theorem refusal?_ne_unknownTask (flow : Flow) (name : String) : flow.refusal? ≠ some (.unknownTask name) := by
  intro refused
  rw [Flow.refusal?] at refused
  cases duplicated : duplicate? flow with
  | some error =>
      have same : error = .unknownTask name := by simpa [duplicated] using refused
      subst same
      rw [duplicate?] at duplicated
      split at duplicated
      · cases duplicated
      · simp at duplicated
  | none =>
    rw [duplicated] at refused
    obtain ⟨task, -, failed⟩ := List.exists_of_findSome?_eq_some refused
    rw [Task.error?] at failed
    split at failed
    · cases failed
    · obtain ⟨reference, -, bad⟩ := List.exists_of_findSome?_eq_some failed
      rw [Task.referenceFault?] at bad
      split at bad
      · cases bad
      · split at bad <;> cases bad

theorem wellFormed_of_ofFlow {flow : Flow} {graph : Graph} (accepted : ofFlow flow = .ok graph) :
    flow.WellFormed := by
  obtain ⟨unique, checked⟩ := refusal?_eq_none_iff.mp (refusal?_of_ofFlow accepted)
  obtain ⟨distinctTasks, distinctModels⟩ := duplicate?_eq_none_iff.mp unique
  have clean (task : Task) (member : task ∈ flow.tasks) :=
    (Task.error?_eq_none_iff distinctTasks task).mp (checked task member)
  obtain ⟨-, -, tasks, -, -⟩ := ofFlow_ok_iff.mp accepted
  refine ⟨distinctTasks, distinctModels, fun task member => (clean task member).1,
    fun task member => (clean task member).2, ?_⟩
  rw [← tasks]
  exact acyclic_of_sound (sound_of_ofFlow accepted)

theorem ofFlow_of_wellFormed {flow : Flow} (wellFormed : flow.WellFormed) :
    ∃ graph, ofFlow flow = .ok graph := by
  have passed : flow.refusal? = none := by
    refine refusal?_eq_none_iff.mpr ⟨?_, ?_⟩
    · exact duplicate?_eq_none_iff.mpr ⟨wellFormed.distinctTasks, wellFormed.distinctModels⟩
    · intro task member
      exact (Task.error?_eq_none_iff wellFormed.distinctTasks task).mpr
        ⟨wellFormed.consistent task member, wellFormed.supported task member⟩
  cases built : ofFlow flow with
  | ok graph => exact ⟨graph, rfl⟩
  | error error =>
      rcases ofFlow_error built with early | ⟨-, task, member, failed⟩
      · cases passed.symm.trans early
      · obtain ⟨path, -, loop⟩ := cycle_of_checks passed member failed
        obtain ⟨looped, -, around⟩ := loop.around
        exact absurd around (wellFormed.acyclic looped)

theorem configured_of_reliances {tasks listed : List Task} {reliances : List (String × List String)}
    (resolved : List.Forall₂ (fun task reliance =>
      (do return (task.name, ← resolve tasks task.name)) = .ok reliance) listed reliances)
    {name : String} {leaves : List String} (found : reliances.lookup name = some leaves) :
    ∃ task ∈ listed, task.name = name := by
  induction resolved with
  | nil => cases found
  | @cons head reliance tail rest first _ ih =>
      obtain ⟨own, -, same⟩ := bind_ok_iff.mp first
      cases pure_ok_iff.mp same
      by_cases named : name = head.name
      · exact ⟨head, List.mem_cons_self, named.symm⟩
      · have apart : (name == head.name) = false := by simpa using named
        obtain ⟨task, member, here⟩ := ih (by simpa [List.lookup_cons, apart] using found)
        exact ⟨task, List.mem_cons_of_mem _ member, here⟩

theorem reliesOn?_iff_resolve {flow : Flow} {graph : Graph} (accepted : ofFlow flow = .ok graph)
    (name : String) (leaves : List String) :
    graph.reliesOn? name = some leaves ↔ resolve graph.tasks name = .ok leaves := by
  obtain ⟨-, -, tasks, -, resolved⟩ := ofFlow_ok_iff.mp accepted
  rw [← tasks] at resolved
  have listed (task : Task) (member : task ∈ graph.tasks) (named : task.name = name) :
      ∃ own, resolve graph.tasks name = .ok own ∧ graph.reliesOn? name = some own :=
    named ▸ reliances_lookup resolved task member
  constructor
  · intro relies
    obtain ⟨task, member, named⟩ := configured_of_reliances resolved relies
    obtain ⟨own, found, recorded⟩ := listed task member named
    cases Option.some.inj (relies.symm.trans recorded)
    exact found
  · intro found
    obtain ⟨task, here, -⟩ := Resolve.visit_ok_iff.mp found
    obtain ⟨own, found', recorded⟩ := listed task (Task.mem_of_find? here) (Task.name_of_find? here)
    cases Except.ok.inj (found.symm.trans found')
    exact recorded

/-- A flow is accepted exactly when it is well-formed. Its graph has the tasks of all sections in
their order, each once, and for every name the leaves that a walk from there finds, if it finds any.
A flow that is refused fails one of the checks, or all of them pass and a walk has met a cycle: the
checks have seen to it that whatever the walk looks up is there. -/
theorem ofFlow_accepts (flow : Flow) :
    ((∃ graph, ofFlow flow = .ok graph) ↔ flow.WellFormed) ∧
      (∀ graph, ofFlow flow = .ok graph →
        graph.tasks = flow.sources.map .source ++ flow.features.map .feature ++
            flow.transforms.map .transform ++ flow.services.map .service ++
            flow.experiments.map .experiment ++ flow.layers.map .layer ++ flow.scenes.map .scene ∧
          (graph.tasks.map Task.name).Nodup ∧
          ∀ name leaves, graph.reliesOn? name = some leaves ↔ resolve graph.tasks name = .ok leaves) ∧
      (∀ error, ofFlow flow = .error error →
        (∀ name, error ≠ .unknownTask name) ∧
          (flow.refusal? = some error ∨
            flow.refusal? = none ∧ ∃ task ∈ flow.tasks, ∃ path, error = .cycle path ∧
              resolve flow.tasks task.name = .error (.cycle path))) ∧
      (flow.refusal? = none → ∀ task ∈ flow.tasks, ∀ dependency ∈ task.dependencies,
        ∃ target, Task.find? flow.tasks dependency = some target) := by
  refine ⟨⟨?_, ofFlow_of_wellFormed⟩, ?_, ?_, ?_⟩
  · rintro ⟨graph, accepted⟩
    exact wellFormed_of_ofFlow accepted
  · intro graph accepted
    obtain ⟨-, -, tasks, -, -⟩ := ofFlow_ok_iff.mp accepted
    exact ⟨tasks, (sound_of_ofFlow accepted).distinct, reliesOn?_iff_resolve accepted⟩
  · intro error refused
    rcases ofFlow_error refused with early | ⟨passed, task, member, failed⟩
    · exact ⟨fun name same => refusal?_ne_unknownTask flow name (same ▸ early), .inl early⟩
    · obtain ⟨path, rfl, -⟩ := cycle_of_checks passed member failed
      exact ⟨fun name => by simp, .inr ⟨passed, task, member, path, rfl, failed⟩⟩
  · intro passed task member dependency listed
    obtain ⟨unique, checked⟩ := refusal?_eq_none_iff.mp passed
    have distinct := (duplicate?_eq_none_iff.mp unique).1
    have found := (Task.find?_iff_mem distinct).mpr ⟨member, rfl⟩
    exact defined_of_checks checked task.name dependency ⟨task, found, listed⟩

def storeFlow : Flow where
  sources := [
    ⟨"users", [⟨"id", .str⟩, ⟨"age", .int32⟩], some [[("id", .string "u1"), ("age", .number (.int 30))]],
      some ⟨"id", "id"⟩⟩,
    ⟨"items", [⟨"id", .str⟩, ⟨"price", .double⟩], none, none⟩]
  features := [⟨"user_feature", ["users"], none, []⟩]
  transforms := [⟨"scored", ["user_feature", "items"], [], none,
    [⟨⟨"score", .double⟩, .weightedSum, ["age", "price"], [1.0, 0.5], none⟩], []⟩]
  services := [⟨"recall", ["scored"], [], none, none, true, none⟩]
  experiments := [⟨"plain", ["recall"], none⟩, ⟨"ranked", ["recall"], some ⟨"ctr", ["price"], "score", none⟩⟩]
  layers := [⟨"home", true, [⟨"plain", 0.5⟩, ⟨"ranked", 0.5⟩]⟩]
  scenes := [⟨"front", ["home"], [], none⟩]
  models := [⟨"ctr", "http://localhost:1", none⟩]

theorem store_flow_accepted :
    ∃ graph, ofFlow storeFlow = .ok graph ∧ storeFlow.WellFormed ∧
      graph.reliesOn? "front" = some ["users", "items"] := by
  have passed : storeFlow.refusal? = none := by decide
  have walks : ∀ task ∈ storeFlow.tasks,
      (Resolve.visitWithin storeFlow.tasks (storeFlow.tasks.length + 1) [] [] task.name).any Except.isOk =
        true := by decide
  obtain ⟨accepts, facts, refuses, -⟩ := ofFlow_accepts storeFlow
  cases built : ofFlow storeFlow with
  | error error =>
      obtain ⟨-, early | ⟨-, task, member, path, -, failed⟩⟩ := refuses error built
      · cases passed.symm.trans early
      · have computed := walks task member
        rw [Resolve.visitWithin_eq_resolve, failed] at computed
        cases computed
  | ok graph =>
      obtain ⟨tasks, -, relies⟩ := facts graph built
      have front : resolve storeFlow.tasks "front" = .ok ["users", "items"] :=
        Resolve.resolve_of_visitWithin rfl
      have same : graph.tasks = storeFlow.tasks := tasks
      rw [← same] at front
      exact ⟨graph, rfl, accepts.mp ⟨graph, built⟩, (relies "front" _).mpr front⟩

end Graph

end Curator
