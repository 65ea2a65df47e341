import Curator.Proofs.Operation.Refinement
import Curator.Proofs.Engine.Influence
/-!
What a task can come to ask and to keep, and what can have an influence on it: no source but those
that its graph says it relies on, and no slot but those of the tables below it.
-/

set_option autoImplicit false

namespace Curator

namespace Graph

def ReliesOn (graph : Graph) (task source : String) : Prop :=
  source = task ∨ source ∈ (graph.reliesOn? task).getD []

def Feeds (graph : Graph) (task name : String) : Prop :=
  Reaches graph.tasks task name ∧ ∃ target, graph.lookup name = some target ∧ target.kind = .dataService

theorem reliesOn_of_reaches {graph : Graph} (sound : graph.Sound) {task source : String}
    (reached : Reaches graph.tasks task source) (isSource : IsSource graph.tasks source) :
    graph.ReliesOn task source := by
  obtain ⟨next, ⟨owner, found, -⟩, -⟩ := Relation.TransGen.head'_iff.mp reached
  obtain ⟨leaves, relied, leaf⟩ := mem_reliesOn_iff sound found
  refine .inr ?_
  rw [relied, Option.getD_some]
  exact (leaf source).mpr ⟨isSource, reached⟩

end Graph

def Errand.reach (graph : Graph) (errand : Errand) : Promise where
  sends sent := sent = errand ∨
    (Reaches graph.tasks errand.task sent.task ∧ (sent.isFetch = true → graph.Feeds errand.task sent.task))
  asks query := ∀ source, query.backend = .source source → graph.ReliesOn errand.task source
  ends _ := True

theorem Errand.reach_kept {host : Host} (staffed : host.registry.Staffed) (request : Request)
    (errand : Errand) : (errand.reach host.registry.graph).Kept host request where
  carried sender worker sent carried := by
    obtain ⟨owner, found, serves⟩ := staffed.serves sender.task worker carried
    have below (dependency : String) (listed : dependency ∈ owner.dependencies) :
        Reaches host.registry.graph.tasks errand.task dependency := by
      have depends : Depends host.registry.graph.tasks sender.task dependency := ⟨owner, found, listed⟩
      rcases sent with rfl | ⟨above, -⟩
      · exact .single depends
      · exact above.tail depends
    refine (Errand.plan_keeps serves request sender).mono ?_ ?_ fun _ _ => trivial
    · intro next listed
      refine .inr ⟨below next.task listed.1, fun fetches => ⟨below next.task listed.1, ?_⟩⟩
      exact Graph.isData_of_fetch staffed.sound found listed fetches
    · intro query own source asked
      obtain ⟨isSource, same⟩ := own source asked
      have named : source = sender.task := same.trans (Task.name_of_find? found)
      rcases sent with rfl | ⟨above, -⟩
      · exact .inl named
      · exact Graph.reliesOn_of_reaches staffed.sound (named ▸ above) (named ▸ ⟨owner, found, isSource⟩)
  recalled _ := trivial
  late _ := trivial

/-- On the way from one machine to the other, no source was asked but those that the task relies on,
and no slot was made but for tables below the task, or for the task itself when it is fetched. -/
structure Errand.Stays (graph : Graph) (errand : Errand) (before after : Machine) : Prop where
  calls : ∃ asked, after.calls = before.calls ++ asked ∧
    ∀ query ∈ asked, ∀ source, query.backend = .source source → graph.ReliesOn errand.task source
  slots : ∀ name, before.memo.slot? name = none → after.memo.slot? name ≠ none →
    graph.Feeds errand.task name ∨ errand = .fetch name

theorem Errand.reach_start (graph : Graph) (errand : Errand) :
    (Plan.send [errand] .succeed).Keeps (errand.reach graph) :=
  ⟨fun _ member => .inl (List.mem_singleton.mp member), fun _ => trivial⟩

theorem Errand.stays_of_run {host : Host} (staffed : host.registry.Staffed) {request : Request}
    {errand : Errand} {steps : Nat} {later : Activity} {machine after : Machine}
    (run : Activity.Run host request steps (.sleeping none machine.clock (.send [errand] .succeed)) machine
      later after) : errand.Stays host.registry.graph machine after := by
  have kept := errand.reach_kept staffed request
  have keeps : Activity.Keeps (errand.reach host.registry.graph)
      (.sleeping none machine.clock (.send [errand] .succeed)) :=
    .start (errand.reach_start _) machine.clock
  refine ⟨run.asks kept (fun _ => trivial) keeps, ?_⟩
  intro name fresh made
  rcases run.touches kept (fun _ => trivial) keeps name with same | same | ⟨-, feeds⟩
  · exact absurd (same.trans fresh) made
  · exact .inr same.symm
  · exact .inl (feeds rfl)

structure Host.SameBut (outside : String → Prop) (host other : Host) : Prop where
  timeout : other.timeout = host.timeout
  schedule : other.schedule = host.schedule
  size : other.registry.graph.size = host.registry.graph.size
  breadth : other.breadth = host.breadth
  workers : ∀ name, ¬ outside name → other.registry.worker? name = host.registry.worker? name
  backends : ∀ query, (∀ name, query.backend = .source name → ¬ outside name) →
    other.backends query = host.backends query

structure Machine.SameBut (outside : String → Prop) (machine other : Machine) : Prop where
  clock : other.clock = machine.clock
  turns : other.turns = machine.turns
  calls : ∀ backend, (∀ name, backend = .source name → ¬ outside name) →
    other.callsTo backend = machine.callsTo backend
  slots : ∀ name, ¬ outside name → other.memo.slot? name = machine.memo.slot? name

def Graph.Unrelated (graph : Graph) (task source : String) : Prop :=
  IsSource graph.tasks source ∧ ¬ graph.ReliesOn task source

theorem Errand.reach_related {graph : Graph} (sound : graph.Sound) {errand sent : Errand}
    (sends : (errand.reach graph).sends sent) : ¬ graph.Unrelated errand.task sent.task := by
  rintro ⟨isSource, apart⟩
  rcases sends with rfl | ⟨reached, -⟩
  · exact apart (.inl rfl)
  · exact apart (Graph.reliesOn_of_reaches sound reached isSource)

theorem Errand.outcome_unrelated {host other : Host} (staffed : host.registry.Staffed) {request : Request}
    {errand : Errand} {machine machine' : Machine}
    (hosts : host.SameBut (host.registry.graph.Unrelated errand.task) other)
    (machines : machine.SameBut (host.registry.graph.Unrelated errand.task) machine') :
    (other.perform request 1 (.send [errand] .succeed) machine').1 =
      (host.perform request 1 (.send [errand] .succeed) machine).1 := by
  have asked (query : Query) (asks : (errand.reach host.registry.graph).asks query) (source : String)
      (same : query.backend = .source source) : ¬ host.registry.graph.Unrelated errand.task source :=
    fun ⟨_, apart⟩ => apart (asks source same)
  have alike : host.Agrees (errand.reach host.registry.graph) other :=
    { timeout := hosts.timeout
      schedule := hosts.schedule
      size := hosts.size
      breadth := hosts.breadth
      workers := fun sent sends => hosts.workers sent.task (reach_related staffed.sound sends)
      backends := fun query asks => hosts.backends query (asked query asks) }
  have agrees : machine.Agrees (errand.reach host.registry.graph) machine' :=
    { clock := machines.clock
      turns := machines.turns
      calls := fun query asks => machines.calls query.backend (asked query asks)
      slots := fun task sends => machines.slots task (reach_related staffed.sound sends) }
  exact (Host.perform_alike alike (errand.reach_kept staffed request) 1 (errand.reach_start _) agrees).1

/-- Whatever a task is run on or fetched for, on whatever machine and in whatever order the steps are
taken: it asks no sources and makes no slots but those that its graph accounts for, and sources that
it does not rely on have no influence on what it comes to. -/
theorem Host.perform_relies {flow : Flow} {graph : Graph} {offer : Offer} {host : Host}
    (accepted : Graph.ofFlow flow = .ok graph) (built : Registry.build graph offer = .ok host.registry)
    (request : Request) (errand : Errand) (machine : Machine) :
    (∀ steps later after,
        Activity.Run host request steps (.sleeping none machine.clock (.send [errand] .succeed)) machine
          later after → errand.Stays graph machine after) ∧
      errand.Stays graph machine (host.perform request 1 (.send [errand] .succeed) machine).2 ∧
      ∀ other machine', host.SameBut (graph.Unrelated errand.task) other →
        machine.SameBut (graph.Unrelated errand.task) machine' →
        (other.perform request 1 (.send [errand] .succeed) machine').1 =
          (host.perform request 1 (.send [errand] .succeed) machine).1 := by
  have staffed := Registry.staffed_of_build (Graph.sound_of_ofFlow accepted) built
  have same : host.registry.graph = graph := Registry.graph_of_build built
  subst same
  obtain ⟨steps, later, run⟩ := @Host.perform_runs host request 1 (.send [errand] .succeed) machine
  exact ⟨fun steps later after run => Errand.stays_of_run staffed run, Errand.stays_of_run staffed run,
    fun other machine' hosts machines => Errand.outcome_unrelated staffed hosts machines⟩

def failingHost : Host :=
  { sharedHost with
    registry := ⟨sharedGraph, ("users", .configured (.source ⟨"users", [⟨"id", .str⟩], none, none⟩)) ::
      sharedRegistry.workers⟩
    backends := fun query _ => match query with
      | .rows "users" _ _ => (7, .error ["gone"])
      | query => (3, sharedAnswers query) }

theorem fresh_relies_on_items :
    Errand.Stays sharedGraph (.fetch "fresh") .start
        (sharedHost.perform .empty 1 (.send [.fetch "fresh"] .succeed) .start).2 ∧
      (failingHost.perform .empty 1 (.send [.fetch "fresh"] .succeed) .start).1 =
        (sharedHost.perform .empty 1 (.send [.fetch "fresh"] .succeed) .start).1 := by
  obtain ⟨-, stays, apart⟩ := sharedHost.perform_relies shared_flow_accepted shared_registry_built .empty
    (.fetch "fresh") .start
  refine ⟨stays, apart failingHost .start ?_ ⟨rfl, rfl, fun _ _ => rfl, fun _ _ => rfl⟩⟩
  have unrelated : sharedGraph.Unrelated "fresh" "users" := by
    refine ⟨⟨_, rfl, rfl⟩, ?_⟩
    rw [Graph.ReliesOn]
    decide
  refine ⟨rfl, rfl, rfl, rfl, ?_, ?_⟩
  · intro name related
    have other : name ≠ "users" := by
      rintro rfl
      exact related unrelated
    have apart : (name == "users") = false := by simpa using other
    simp [Registry.worker?, failingHost, List.lookup_cons, apart, sharedHost]
  · intro query related
    funext earlier
    simp only [failingHost]
    split
    · exact absurd unrelated (related "users" rfl)
    · rfl

def loneFlow : Flow := { Flow.empty with services := [⟨"lone", [], [], none, none, false, none⟩] }

def loneGraph : Graph := ⟨loneFlow.tasks, [], [("lone", [])]⟩

def loneHost : Host where
  registry := ⟨loneGraph, loneFlow.tasks.map fun task => (task.name, .configured task)⟩
  backends query _ := (0, sharedAnswers query)
  timeout := 1000
  schedule := .eager

theorem fetched_service_has_slot :
    Graph.ofFlow loneFlow = .ok loneGraph ∧ Registry.build loneGraph .empty = .ok loneHost.registry ∧
      ¬ ∀ name, Machine.start.memo.slot? name = none →
        (loneHost.perform .empty 1 (.send [.fetch "lone"] .succeed) .start).2.memo.slot? name ≠ none →
        (name = "lone" ∨ Reaches loneGraph.tasks "lone" name) ∧
          ∃ target, loneGraph.lookup name = some target ∧ target.kind = .dataService := by
  refine ⟨by cbv, rfl, ?_⟩
  intro every
  have present : ((loneHost.perform .empty 1 (.send [.fetch "lone"] .succeed) .start).2.memo.slot?
      "lone").isSome = true := by decide +kernel
  obtain ⟨-, target, found, kind⟩ := every "lone" rfl (by
    intro absent
    simp [absent] at present)
  have service : loneGraph.lookup "lone" = some (.service ⟨"lone", [], [], none, none, false, none⟩) := by cbv
  cases found.symm.trans service
  cases kind

end Curator
