import Curator.Proofs.Engine.Produce
import Curator.Proofs.Operation.Refinement
/-!
What the memo of a request holds: under every name the data of the task of that name, as the task is
declared, whether the caller has supplied it or it was produced, and whatever becomes of the request.
-/

set_option autoImplicit false

namespace Curator

structure Graph.Provides (graph : Graph) (name : String) (table : Table) : Prop where
  named : table.name = name
  configured : ∃ task, graph.lookup name = some task ∧ task.kind = .dataService ∧
    (task.columns ≠ [] → table.columns = task.columns)
  conforming : ∀ row ∈ table.rows, row.Conforms table.columns

def Graph.Types (graph : Graph) (memo : Memo) : Prop :=
  ∀ name table, memo.slot? name = some (.filled table) → graph.Provides name table

theorem Graph.provides_of_satisfies {graph : Graph} {name : String} {task : Task} {table : Table}
    (found : graph.lookup name = some task) (data : task.kind = .dataService)
    (satisfies : table.Satisfies task) : graph.Provides name table where
  named := satisfies.named.trans (Task.name_of_find? found)
  configured := ⟨task, found, data, satisfies.declared⟩
  conforming := satisfies.conforming

theorem Registry.provides_of_given {registry : Registry} {task source : String} {request : Request}
    {table : Table} (isSource : IsSource registry.graph.tasks source)
    (given : registry.given task request source = some table) : registry.graph.Provides source table := by
  obtain ⟨target, found, source'⟩ := isSource
  have here : registry.graph.lookup source = some target := found
  obtain ⟨records, -, made⟩ := Registry.given_eq_some_iff.mp given
  obtain ⟨named, declared, conforming⟩ := Table.ofRecords_made made
  rw [Registry.declared, here] at declared
  cases target with
  | source definition => exact ⟨named, ⟨_, here, rfl, fun _ => declared⟩, conforming⟩
  | feature | transform | service | experiment | layer | scene => cases source'

theorem Operation.provides_of_seed {registry : Registry} (staffed : registry.Staffed) {operation : Operation}
    {job : Job} (made : operation.job registry = .ok job) {table : Table} (seed : table ∈ job.seeds) :
    registry.graph.Provides table.name table := by
  cases operation with
  | invoke task params =>
      obtain ⟨known, -, supplied, -⟩ := Job.invoke_ok made
      obtain ⟨worker, carried⟩ := Option.isSome_iff_exists.mp known
      obtain ⟨owner, found, -⟩ := staffed.serves task worker carried
      obtain ⟨leaves, relied, leaf⟩ := Graph.mem_reliesOn_iff staffed.sound found
      rw [relied, Option.getD_some] at supplied
      rw [(Registry.suppliedAll_ok_iff.mp supplied).2] at seed
      obtain ⟨source, member, given⟩ := List.mem_filterMap.mp seed
      rw [Registry.name_of_given given]
      exact Registry.provides_of_given ((leaf source).mp member).1 given
  | recommend task params =>
      obtain ⟨first, -, rfl⟩ := Job.recommend_ok made
      cases seed
  | recommendFor scene subject params =>
      obtain ⟨-, none, -⟩ := Job.recommendFor_ok made
      simp [none] at seed

theorem Operation.types_of_seeds {registry : Registry} (staffed : registry.Staffed) {operation : Operation}
    {job : Job} (made : operation.job registry = .ok job) (count : Nat) :
    registry.graph.Types (Memo.seedAll [] (job.seeds.take count)) := by
  intro name table filled
  obtain ⟨among, rfl⟩ := Memo.mem_of_seedAll filled
  exact Operation.provides_of_seed staffed made (List.mem_of_mem_take among)

theorem Activity.Run.types {host : Host} (staffed : host.registry.Staffed) (builtIn : host.registry.IsBuiltIn)
    {operation : Operation} {job : Job} (made : operation.job host.registry = .ok job) {steps : Nat}
    {later : Activity} {machine after : Machine}
    (run : Run host job.request steps (.sleeping none machine.clock job.plan)
      (machine.withMemo (Memo.seedAll [] job.seeds)) later after) : host.registry.graph.Types after.memo := by
  intro name table filled
  have keeps : job.plan.Keeps (Promise.fetchesData host.registry.graph) := by
    refine (Operation.job_keeps made).mono ?_ (fun _ _ => trivial) fun _ _ => trivial
    intro errand sends fetches
    exact nomatch sends.2.symm.trans fetches
  rcases run.satisfied staffed builtIn keeps filled with seeded | ⟨task, found, data, satisfies⟩
  · have whole := Operation.types_of_seeds staffed made job.seeds.length
    rw [List.take_length] at whole
    exact whole name table seeded
  · exact Graph.provides_of_satisfies found data satisfies

/-- For every accepted graph, every registry in which no task is replaced, every operation with any
parameters, and whatever the backends answer: while the tables that the caller supplies are put into
the memo, at each point of the work that follows, in whatever order its steps are taken, and when the
operation is over, in success or in failure, all tables of the memo are what the graph lets expect. -/
theorem Host.memo_typed {flow : Flow} {graph : Graph} {offer : Offer} {host : Host}
    (accepted : Graph.ofFlow flow = .ok graph) (unreplaced : offer.replacements = [])
    (built : Registry.build graph offer = .ok host.registry) (operation : Operation) (machine : Machine)
    {job : Job} (made : operation.job host.registry = .ok job) :
    (∀ count, graph.Types (Memo.seedAll [] (job.seeds.take count))) ∧
      (∀ steps later after, Activity.Run host job.request steps (.sleeping none machine.clock job.plan)
          (machine.withMemo (Memo.seedAll [] job.seeds)) later after → graph.Types after.memo) ∧
      graph.Types (host.operate operation machine).2.memo := by
  have sound : graph.Sound := Graph.sound_of_ofFlow accepted
  have builtIn := Registry.isBuiltIn_of_build sound unreplaced built
  have staffed := Registry.staffed_of_build sound built
  have same : host.registry.graph = graph := Registry.graph_of_build built
  subst same
  refine ⟨Operation.types_of_seeds staffed made, fun steps later after run => run.types staffed builtIn made, ?_⟩
  obtain ⟨steps, run⟩ := host.runJob_settles staffed made machine
  simp only [Host.operate, made]
  exact run.types staffed builtIn made

theorem shared_memo_typed :
    (sharedHost.operate (.invoke "candidates" sharedParams) .start).2.memo.map Prod.fst =
        ["users", "fresh", "items", "liked"] ∧
      sharedGraph.Types (sharedHost.operate (.invoke "candidates" sharedParams) .start).2.memo := by
  obtain ⟨job, made⟩ : ∃ job, Operation.job sharedRegistry (.invoke "candidates" sharedParams) = .ok job :=
    ⟨_, rfl⟩
  obtain ⟨-, -, typed⟩ := sharedHost.memo_typed shared_flow_accepted rfl shared_registry_built
    (.invoke "candidates" sharedParams) .start made
  exact ⟨by decide +kernel, typed⟩

end Curator
