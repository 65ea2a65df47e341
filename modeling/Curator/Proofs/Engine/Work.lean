import Curator.Proofs.Engine.Promise
import Curator.Proofs.Registry
/-!
What the plan of each kind of task keeps to: it sends for tasks that the task depends on and for no
others, it asks no source but the task itself, it fails for reasons of its own, and it takes no more
steps than its dependencies account for.
-/

set_option autoImplicit false

namespace Curator

def Failure.IsOwn : Failure → Prop
  | .invalidSplit _ | .executionFailed _ _ | .schema _ _ | .source _ _ | .scoring _ _ => True
  | _ => False

def Task.pulls : Task → Bool
  | .source _ | .feature _ | .transform _ | .service _ => true
  | .experiment _ | .layer _ | .scene _ => false

theorem Task.dataService_of_pull {task target : Task} {reference : Role × String}
    (pulls : task.pulls = true) (listed : reference ∈ task.references)
    (admitted : reference.1.admits target = true) : target.kind = .dataService := by
  cases task with
  | experiment | layer | scene => cases pulls
  | source definition => cases listed
  | feature definition =>
      obtain ⟨name, -, rfl⟩ := List.mem_map.mp listed
      cases target <;> first | rfl | cases admitted
  | transform definition =>
      rcases List.mem_append.mp listed with feature | transform
      · obtain ⟨name, -, rfl⟩ := List.mem_map.mp feature
        cases target <;> first | rfl | cases admitted
      · obtain ⟨name, -, rfl⟩ := List.mem_map.mp transform
        cases target <;> first | rfl | cases admitted
  | service definition =>
      obtain ⟨name, -, rfl⟩ := List.mem_map.mp listed
      cases target <;> first | rfl | cases admitted

theorem Task.not_source_of_run {task target : Task} {reference : Role × String}
    (runs : task.pulls = false) (listed : reference ∈ task.references)
    (admitted : reference.1.admits target = true) : target.isSource = false := by
  cases task with
  | source | feature | transform | service => cases runs
  | experiment definition =>
      obtain ⟨name, -, rfl⟩ := List.mem_map.mp listed
      cases target <;> first | rfl | cases admitted
  | layer definition =>
      obtain ⟨arm, -, rfl⟩ := List.mem_map.mp listed
      cases target <;> first | rfl | cases admitted
  | scene definition =>
      obtain ⟨name, -, rfl⟩ := List.mem_map.mp listed
      cases target <;> first | rfl | cases admitted

def Task.promise (task : Task) : Promise where
  sends errand := errand.task ∈ task.dependencies ∧ errand.isFetch = task.pulls
  asks query := ∀ name, query.backend = .source name → task.isSource = true ∧ name = task.name
  ends outcome := ∀ failure, outcome = .error failure → failure.IsOwn

namespace Graph

def IsData (graph : Graph) (name : String) : Prop :=
  ∃ task, graph.lookup name = some task ∧ task.kind = .dataService

theorem isData_of_fetch {graph : Graph} (sound : graph.Sound) {name : String} {task : Task} {errand : Errand}
    (found : graph.lookup name = some task) (sends : task.promise.sends errand)
    (fetches : errand.isFetch = true) : graph.IsData errand.task := by
  obtain ⟨reference, target, referred, here, admitted⟩ := dependency_admitted sound found sends.1
  exact ⟨target, here, Task.dataService_of_pull (sends.2.symm.trans fetches) referred admitted⟩

theorem fetches_source {graph : Graph} (sound : graph.Sound) {name : String} {task : Task} {errand : Errand}
    (found : graph.lookup name = some task) (sends : task.promise.sends errand)
    (isSource : IsSource graph.tasks errand.task) : errand.isFetch = true := by
  obtain ⟨reference, target, referred, here, admitted⟩ := dependency_admitted sound found sends.1
  obtain ⟨target', here', source⟩ := isSource
  cases here.symm.trans here'
  cases runs : task.pulls with
  | true => exact sends.2.trans runs
  | false => simp [Task.not_source_of_run runs referred admitted] at source

end Graph

namespace Plan

-- With so much for every errand, the plan takes no more than so many steps.
def Spends (each : Nat) : Plan → Nat → Prop
  | .done _, total => 1 ≤ total
  | .wait _ rest, total => ∃ less, less < total ∧ rest.Spends each less
  | .ask _ next, total => ∃ less, less < total ∧ ∀ answer, (next answer).Spends each less
  | .send errands next, total =>
      ∃ less, errands.length * each + less + 2 ≤ total ∧ ∀ tables, (next tables).Spends each less

variable {promise : Promise} {each : Nat}

theorem Keeps.mono {wider : Promise} {plan : Plan} (keeps : plan.Keeps promise)
    (sends : ∀ errand, promise.sends errand → wider.sends errand)
    (asks : ∀ query, promise.asks query → wider.asks query)
    (ends : ∀ outcome, promise.ends outcome → wider.ends outcome) : plan.Keeps wider := by
  induction plan with
  | done outcome => exact ends outcome keeps
  | wait delay rest ih => exact ih keeps
  | ask query next ih => exact ⟨asks query keeps.1, fun answer => ih answer (keeps.2 answer)⟩
  | send errands next ih =>
      exact ⟨fun errand sent => sends errand (keeps.1 errand sent), fun tables => ih tables (keeps.2 tables)⟩

theorem Spends.mono {plan : Plan} {total more : Nat} (spends : plan.Spends each total)
    (bound : total ≤ more) : plan.Spends each more := by
  cases plan with
  | done outcome => exact Nat.le_trans spends bound
  | wait delay rest =>
      obtain ⟨less, under, rest⟩ := spends
      exact ⟨less, Nat.lt_of_lt_of_le under bound, rest⟩
  | ask query next =>
      obtain ⟨less, under, rest⟩ := spends
      exact ⟨less, Nat.lt_of_lt_of_le under bound, rest⟩
  | send errands next =>
      obtain ⟨less, under, rest⟩ := spends
      exact ⟨less, Nat.le_trans under bound, rest⟩

section Shapes

variable {tasks : List String} {input : List Table} {next : List Table → Plan}

theorem keeps_ofTable {attempt : Except Failure Table}
    (ok : ∀ table, attempt = .ok table → promise.ends (.ok [table]))
    (fails : ∀ failure, attempt = .error failure → promise.ends (.error failure)) :
    (ofTable attempt).Keeps promise := by
  cases attempt with
  | ok table => exact ok table rfl
  | error failure => exact fails failure rfl

theorem keeps_andThen {ends : Outcome → Prop} {plan : Plan} (keeps : plan.Keeps { promise with ends })
    (onward : ∀ tables, ends (.ok tables) → (next tables).Keeps promise)
    (fails : ∀ failure, ends (.error failure) → promise.ends (.error failure)) :
    (plan.andThen next).Keeps promise := by
  induction plan with
  | done outcome =>
      cases outcome with
      | ok tables => exact onward tables keeps
      | error failure => exact fails failure keeps
  | wait delay rest ih => exact ih keeps
  | ask query answered ih => exact ⟨keeps.1, fun answer => ih answer (keeps.2 answer)⟩
  | send errands finished ih => exact ⟨keeps.1, fun tables => ih tables (keeps.2 tables)⟩

theorem keeps_stage (sends : ∀ task ∈ tasks, promise.sends (.run task input))
    (onward : ∀ tables, (next tables).Keeps promise) : (stage tasks input next).Keeps promise := by
  refine ⟨?_, onward⟩
  intro errand sent
  obtain ⟨task, member, rfl⟩ := List.mem_map.mp sent
  exact sends task member

theorem keeps_pull (sends : ∀ task ∈ tasks, promise.sends (.fetch task))
    (onward : ∀ tables, (next tables).Keeps promise) : (pull tasks next).Keeps promise := by
  refine ⟨?_, onward⟩
  intro errand sent
  obtain ⟨task, member, rfl⟩ := List.mem_map.mp sent
  exact sends task member

theorem keeps_chain (sends : ∀ task ∈ tasks, ∀ input, promise.sends (.run task input))
    (onward : ∀ tables, (next tables).Keeps promise) : (chain tasks input next).Keeps promise := by
  induction tasks generalizing input with
  | nil => exact onward input
  | cons task rest ih =>
      refine keeps_stage ?_ fun output => ih fun other member =>
        sends other (List.mem_cons_of_mem _ member)
      intro other member
      exact sends other (List.mem_singleton.mp member ▸ List.mem_cons_self) input

theorem spends_done (outcome : Outcome) : (done outcome).Spends each 1 := Nat.le_refl 1

theorem spends_ofTable (attempt : Except Failure Table) : (ofTable attempt).Spends each 1 := by
  cases attempt <;> exact Nat.le_refl 1

theorem spends_andThen {plan : Plan} {total : Nat} (spends : plan.Spends each total)
    (onward : ∀ tables, (next tables).Spends each 1) : (plan.andThen next).Spends each total := by
  induction plan generalizing total with
  | done outcome =>
      cases outcome with
      | ok tables => exact (onward tables).mono spends
      | error failure => exact spends
  | wait delay rest ih =>
      obtain ⟨less, under, rest⟩ := spends
      exact ⟨less, under, ih rest⟩
  | ask query answered ih =>
      obtain ⟨less, under, rest⟩ := spends
      exact ⟨less, under, fun answer => ih answer (rest answer)⟩
  | send errands finished ih =>
      obtain ⟨less, under, rest⟩ := spends
      exact ⟨less, under, fun tables => ih tables (rest tables)⟩

theorem spends_stage {less : Nat} (onward : ∀ tables, (next tables).Spends each less) :
    (stage tasks input next).Spends each (tasks.length * each + less + 2) :=
  ⟨less, by simp, onward⟩

theorem spends_pull {less : Nat} (onward : ∀ tables, (next tables).Spends each less) :
    (pull tasks next).Spends each (tasks.length * each + less + 2) :=
  ⟨less, by simp, onward⟩

theorem spends_chain {less : Nat} (onward : ∀ tables, (next tables).Spends each less) :
    (chain tasks input next).Spends each (tasks.length * (each + 2) + less) := by
  induction tasks generalizing input with
  | nil => exact (onward input).mono (by simp)
  | cons task rest ih =>
      have first : (chain (task :: rest) input next).Spends each _ :=
        spends_stage fun output => (ih : (chain rest output next).Spends each _)
      refine first.mono ?_
      simp only [List.length_cons, List.length_nil, Nat.add_mul]
      omega

end Shapes

end Plan

/-! How the work on tables fails. -/

theorem schema_isOwn {α : Type} {task : String} {attempt : Except SchemaError α} {failure : Failure}
    (failed : attempt.mapError (.schema task) = .error failure) : failure.IsOwn := by
  obtain ⟨error, -, rfl⟩ := mapError_error_iff.mp failed
  trivial

theorem Feature.assemble_isOwn {feature : Feature} {tables : List Table} {failure : Failure}
    (failed : feature.assemble tables = .error failure) : failure.IsOwn := by
  rcases bind_error_iff.mp failed with merging | ⟨merged, -, restricting⟩
  · exact schema_isOwn merging
  · exact schema_isOwn restricting

theorem Table.derive_isOwn {name : String} {actions : List Action} {table : Table} {failure : Failure}
    (failed : Table.derive name actions table = .error failure) : failure.IsOwn := by
  rw [Table.derive] at failed
  split at failed
  · cases failed
  · split at failed
    · cases failed
      trivial
    · exact schema_isOwn failed

theorem Transform.assemble_isOwn {transform : Transform} {tables : List Table} {failure : Failure}
    (failed : transform.assemble tables = .error failure) : failure.IsOwn := by
  rcases bind_error_iff.mp failed with merging | ⟨merged, -, later⟩
  · exact schema_isOwn merging
  · rcases bind_error_iff.mp later with deriving' | ⟨derived, -, restricting⟩
    · exact Table.derive_isOwn deriving'
    · exact schema_isOwn restricting

theorem Service.assemble_isOwn {service : Service} {tables : List Table} {failure : Failure}
    (failed : service.assemble tables = .error failure) : failure.IsOwn := by
  rcases bind_error_iff.mp failed with stacking | ⟨merged, -, later⟩
  · exact schema_isOwn stacking
  · rcases bind_error_iff.mp later with arranging | ⟨arranged, -, restricting⟩
    · exact schema_isOwn arranging
    · exact schema_isOwn restricting

theorem Scene.assemble_isOwn {scene : Scene} {tables : List Table} {failure : Failure}
    (failed : scene.assemble tables = .error failure) : failure.IsOwn := by
  rcases bind_error_iff.mp failed with stacking | ⟨merged, -, later⟩
  · exact schema_isOwn stacking
  · rcases bind_error_iff.mp later with restricting | ⟨shown, -, impossible⟩
    · exact schema_isOwn restricting
    · cases impossible

theorem Ranking.rank_isOwn {ranking : Ranking} {name : String} {candidates : Table} {scores : List Float}
    {failure : Failure} (failed : ranking.rank name candidates scores = .error failure) :
    failure.IsOwn := by
  rw [Ranking.rank] at failed
  split at failed
  · exact schema_isOwn failed
  · cases failed
    trivial

theorem Outcome.single_isOwn {task : String} {tables : List Table} {failure : Failure}
    (failed : Outcome.single task tables = .error failure) : failure.IsOwn := by
  simp only [Outcome.single] at failed
  split at failed
  · cases failed
  · exact schema_isOwn failed

theorem Source.typed_isOwn {source : Source} {rows : List Row} {failure : Failure}
    (failed : source.typed rows = .error failure) : failure.IsOwn := by
  rw [Source.typed] at failed
  split at failed
  · cases failed
  · cases failed
    trivial

theorem Split.pick_mem {α : Type} [Share α] {draw reached : α} {last : Option String}
    {arms : List (String × α)} {chosen : String} (picked : pick draw reached last arms = some chosen) :
    last = some chosen ∨ chosen ∈ arms.map Prod.fst := by
  induction arms generalizing reached last with
  | nil => exact .inl picked
  | cons arm rest ih =>
      rw [pick] at picked
      split at picked
      · split at picked
        · cases picked
          exact .inr List.mem_cons_self
        · rcases ih picked with here | behind
          · cases here
            exact .inr List.mem_cons_self
          · exact .inr (List.mem_cons_of_mem _ behind)
      · exact (ih picked).imp id (List.mem_cons_of_mem _)

theorem Layer.assign_mem {layer : Layer} {key experiment : String}
    (assigned : layer.assign key = .ok experiment) : experiment ∈ layer.arms.map Arm.name := by
  unfold Layer.assign at assigned
  dsimp only at assigned
  split at assigned
  · cases assigned
  · cases assigned
  · rename_i chosen
    cases assigned
    obtain ⟨shares, -, picked⟩ := bind_ok_iff.mp chosen
    have among := Split.pick_mem (pure_ok_iff.mp picked)
    rcases among with impossible | member
    · cases impossible
    · obtain ⟨pair, inside, rfl⟩ := List.mem_map.mp member
      have first := (List.of_mem_zip inside).1
      simpa using first

/-! What the plans of tasks keep to. -/

theorem ends_of_ok (task : Task) (tables : List Table) : task.promise.ends (.ok tables) :=
  fun _ failed => nomatch failed

theorem ends_of_isOwn (task : Task) {failure : Failure} (own : failure.IsOwn) :
    task.promise.ends (.error failure) := by
  rintro _ ⟨⟩
  exact own

theorem ofTable_keeps (task : Task) {attempt : Except Failure Table}
    (own : ∀ failure, attempt = .error failure → failure.IsOwn) :
    (Plan.ofTable attempt).Keeps task.promise :=
  Plan.keeps_ofTable (fun table _ => ends_of_ok task [table]) fun failure failed => ends_of_isOwn task (own failure failed)

theorem Source.plan_keeps (source : Source) (inline : Option (List Row)) (request : Request) :
    (source.plan inline request).Keeps (Task.source source).promise := by
  have typed (rows : List Row) : (Task.source source).promise.ends (source.typed rows) :=
    fun _ failed => Source.typed_isOwn failed
  rw [Source.plan]
  split
  · exact ends_of_ok _ _
  · split
    · exact typed _
    · refine ⟨fun name asked => ⟨rfl, by cases asked; rfl⟩, ?_⟩
      intro answer
      cases answer with
      | ok rows => exact typed rows
      | error causes => exact ends_of_isOwn _ trivial

theorem Experiment.plan_keeps (experiment : Experiment) (request : Request) (input : List Table) :
    (experiment.plan request input).Keeps (Task.experiment experiment).promise := by
  refine Plan.keeps_chain (fun task member input => ⟨member, rfl⟩) ?_
  intro outputs
  split
  · exact ends_of_ok _ _
  · split
    · exact ends_of_isOwn _ trivial
    · rw [Experiment.rankPlan]
      split
      · exact ends_of_ok _ _
      · refine ⟨fun name asked => (nomatch asked), ?_⟩
        intro answer
        cases answer with
        | ok scores => exact ofTable_keeps _ fun _ failed => Ranking.rank_isOwn failed
        | error causes => exact ends_of_isOwn _ trivial

theorem Layer.plan_keeps (layer : Layer) (request : Request) (input : List Table) :
    (layer.plan request input).Keeps (Task.layer layer).promise := by
  rw [Layer.plan]
  split
  · exact ends_of_isOwn _ trivial
  · rename_i experiment assigned
    refine Plan.keeps_stage (fun task member => ⟨?_, rfl⟩) (ends_of_ok _)
    exact List.mem_singleton.mp member ▸ Layer.assign_mem assigned

theorem Task.plan_keeps (task : Task) (request : Request) (input : List Table) :
    (task.plan request input).Keeps task.promise := by
  cases task with
  | source definition => exact definition.plan_keeps none request
  | feature definition =>
      exact Plan.keeps_pull (fun task member => ⟨member, rfl⟩) fun tables =>
        ofTable_keeps _ fun _ failed => Feature.assemble_isOwn failed
  | transform definition =>
      exact Plan.keeps_pull (fun task member => ⟨member, rfl⟩) fun tables =>
        ofTable_keeps _ fun _ failed => Transform.assemble_isOwn failed
  | service definition =>
      exact Plan.keeps_pull (fun task member => ⟨member, rfl⟩) fun tables =>
        ofTable_keeps _ fun _ failed => Service.assemble_isOwn failed
  | experiment definition => exact definition.plan_keeps request input
  | layer definition => exact definition.plan_keeps request input
  | scene definition =>
      exact Plan.keeps_chain (fun task member input => ⟨member, rfl⟩) fun outputs =>
        ofTable_keeps _ fun _ failed => Scene.assemble_isOwn failed

theorem Worker.execute_keeps {worker : Worker} {task : Task} (serves : worker.Serves task)
    (request : Request) (input : List Table) : (worker.execute request input).Keeps task.promise := by
  cases serves with
  | inline definition rows => exact definition.plan_keeps (some rows) request
  | configured => exact task.plan_keeps request input
  | replaced replacement =>
      change task.promise.ends (replacement.outcome input)
      rw [Replacement.outcome]
      split
      · exact ends_of_isOwn _ trivial
      · exact ends_of_ok _ _

theorem Errand.plan_keeps {worker : Worker} {task : Task} (serves : worker.Serves task)
    (request : Request) (errand : Errand) : (errand.plan request worker).Keeps task.promise := by
  have process : (worker.process request).Keeps task.promise :=
    Plan.keeps_andThen (Worker.execute_keeps serves request [])
      (fun tables _ => ofTable_keeps _ fun _ failed => Outcome.single_isOwn failed) fun _ fails => fails
  cases errand with
  | run name input => exact Worker.execute_keeps serves request input
  | process name => exact process
  | fetch name => exact process

theorem Registry.Staffed.plan_depends {registry : Registry} (staffed : registry.Staffed)
    (request : Request) {errand : Errand} {worker : Worker}
    (found : registry.worker? errand.task = some worker) :
    (errand.plan request worker).Keeps
      ⟨fun sent => Depends registry.graph.tasks errand.task sent.task,
        fun _ => True, fun outcome => ∀ failure, outcome = .error failure → failure.IsOwn⟩ := by
  obtain ⟨task, here, serves⟩ := staffed.serves errand.task worker found
  refine (Errand.plan_keeps serves request errand).mono ?_ (fun _ _ => trivial) fun _ own => own
  intro sent listed
  exact ⟨task, here, listed.1⟩

theorem Registry.Staffed.plan_descends {registry : Registry} (staffed : registry.Staffed)
    (request : Request) {errand : Errand} {worker : Worker}
    (found : registry.worker? errand.task = some worker) :
    (errand.plan request worker).Keeps
      ⟨fun sent => rank registry.graph.tasks sent.task < rank registry.graph.tasks errand.task,
        fun _ => True, fun outcome => ∀ failure, outcome = .error failure → failure.IsOwn⟩ := by
  refine (staffed.plan_depends request found).mono ?_ (fun _ asks => asks) fun _ own => own
  intro sent depends
  exact rank_lt_of_depends (Graph.acyclic_of_sound staffed.sound) depends
    (Graph.dependency_found staffed.sound depends)

/-! How long the plans of tasks are. -/

theorem Source.plan_spends (source : Source) (inline : Option (List Row)) (request : Request)
    (each : Nat) : (source.plan inline request).Spends each 2 := by
  rw [Source.plan]
  split
  · exact Nat.le_succ 1
  · split
    · exact Nat.le_succ 1
    · refine ⟨1, Nat.lt_succ_self 1, ?_⟩
      intro answer
      cases answer <;> exact Nat.le_refl 1

theorem Experiment.plan_spends (experiment : Experiment) (request : Request) (input : List Table)
    (each : Nat) :
    (experiment.plan request input).Spends each (experiment.chain.length * (each + 2) + 2) := by
  refine Plan.spends_chain ?_
  intro outputs
  split
  · exact Nat.le_succ 1
  · split
    · exact Nat.le_succ 1
    · rw [Experiment.rankPlan]
      split
      · exact Nat.le_succ 1
      · refine ⟨1, Nat.lt_succ_self 1, ?_⟩
        intro answer
        cases answer with
        | ok scores => exact Plan.spends_ofTable _
        | error causes => exact Nat.le_refl 1

theorem Layer.plan_spends (layer : Layer) (request : Request) (input : List Table) (each : Nat) :
    (layer.plan request input).Spends each (layer.arms.length * (each + 2) + 1) := by
  rw [Layer.plan]
  split
  · exact Nat.le_add_left 1 _
  · rename_i experiment assigned
    have stage : (Plan.stage [experiment] input .succeed).Spends each _ :=
      Plan.spends_stage fun tables => Plan.spends_done (.ok tables)
    refine stage.mono ?_
    have some : 0 < layer.arms.length := by
      simpa using List.length_pos_of_mem (Layer.assign_mem assigned)
    have one : 1 * (each + 2) ≤ layer.arms.length * (each + 2) := Nat.mul_le_mul_right _ some
    simp only [List.length_cons, List.length_nil]
    omega

theorem Task.plan_spends (task : Task) (request : Request) (input : List Table) (each : Nat) :
    (task.plan request input).Spends each (task.dependencies.length * (each + 2) + 3) := by
  have pulled (tasks : List String) (next : List Table → Plan)
      (onward : ∀ tables, (next tables).Spends each 1) :
      (Plan.pull tasks next).Spends each (tasks.length * (each + 2) + 3) :=
    (Plan.spends_pull onward).mono (by rw [Nat.mul_add]; omega)
  cases task with
  | source definition =>
      exact (definition.plan_spends none request each).mono (by simp)
  | feature definition => exact pulled _ _ fun tables => Plan.spends_ofTable _
  | transform definition => exact pulled _ _ fun tables => Plan.spends_ofTable _
  | service definition => exact pulled _ _ fun tables => Plan.spends_ofTable _
  | experiment definition =>
      exact (definition.plan_spends request input each).mono (by simp [Task.dependencies])
  | layer definition =>
      exact (definition.plan_spends request input each).mono (by simp [Task.dependencies])
  | scene definition =>
      have chained : ((Task.scene definition).plan request input).Spends each _ :=
        Plan.spends_chain fun outputs => Plan.spends_ofTable (definition.assemble outputs)
      exact chained.mono (by simp [Task.dependencies])

theorem Worker.execute_spends {worker : Worker} {task : Task} (serves : worker.Serves task)
    (request : Request) (input : List Table) (each : Nat) :
    (worker.execute request input).Spends each (task.dependencies.length * (each + 2) + 3) := by
  cases serves with
  | inline definition rows =>
      exact (definition.plan_spends (some rows) request each).mono (by simp [Task.dependencies])
  | configured => exact task.plan_spends request input each
  | replaced replacement =>
      refine ⟨1, ?_, Nat.le_refl 1⟩
      omega

theorem Errand.plan_spends {worker : Worker} {task : Task} (serves : worker.Serves task)
    (request : Request) (errand : Errand) (each : Nat) :
    (errand.plan request worker).Spends each (task.dependencies.length * (each + 2) + 3) := by
  have process : (worker.process request).Spends each (task.dependencies.length * (each + 2) + 3) :=
    Plan.spends_andThen (Worker.execute_spends serves request [] each) fun tables =>
      Plan.spends_ofTable _
  cases errand with
  | run name input => exact Worker.execute_spends serves request input each
  | process name => exact process
  | fetch name => exact process

end Curator
