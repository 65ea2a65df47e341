import Curator.Proofs.Engine.Reads
/-!
Sources that have rows put behind them, in a host that is otherwise as it was. The tables that such
rows make are either supplied from the start or produced as soon as somebody asks, and in both cases
everything else takes the same course.
-/

set_option autoImplicit false

namespace Curator

def Offer.backing (offer : Offer) (names : List String) : Offer :=
  { offer with sources := names ++ offer.sources }

def Host.backedBy (host : Host) (registry : Registry) (names : List String) (rows : String → List Row) :
    Host where
  registry := registry
  backends := fun query earlier => match query with
    | .rows source columns filter =>
        if source ∈ names then (0, .ok (rows source)) else host.backends (.rows source columns filter) earlier
    | .scores model subject features rows => host.backends (.scores model subject features rows) earlier
  timeout := host.timeout
  schedule := host.schedule

namespace Registry

variable {graph : Graph} {offer : Offer} {names : List String}

theorem worker_backing {task : Task} (apart : task.name ∉ names) :
    Registry.worker graph (offer.backing names) task = Registry.worker graph offer task := by
  have replaced : (offer.backing names).replacement? task.name = offer.replacement? task.name := rfl
  simp only [Registry.worker, replaced]
  cases task with
  | source definition =>
      have apart' : definition.name ∉ names := apart
      have offered : definition.name ∈ (offer.backing names).sources ↔ definition.name ∈ offer.sources := by
        simp [Offer.backing, apart']
      simp only [offered]
  | experiment definition => rfl
  | feature | transform | service | layer | scene => rfl

theorem worker_backed (unreplaced : offer.replacements = []) {definition : Source}
    (member : definition.name ∈ names) :
    Registry.worker graph (offer.backing names) (.source definition) =
      .ok (some (.configured (.source definition))) := by
  have none : (offer.backing names).replacement? definition.name = none := by
    simp [Offer.replacement?, Offer.backing, unreplaced, Offer.latest]
  have offered : definition.name ∈ (offer.backing names).sources := List.mem_append_left _ member
  simp only [Registry.worker, Task.name, none, if_pos offered]

theorem build_backing (sound : graph.Sound) (unreplaced : offer.replacements = []) {registry : Registry}
    (built : build graph offer = .ok registry) (sources : ∀ name ∈ names, IsSource graph.tasks name) :
    ∃ other, build graph (offer.backing names) = .ok other := by
  obtain ⟨passed, -⟩ := build_eq_ok_iff.mp built
  have all (task : Task) (member : task ∈ graph.tasks) :
      ∃ worker, Registry.worker graph (offer.backing names) task = .ok worker := by
    have found := Graph.lookup_of_mem sound member
    by_cases backed : task.name ∈ names
    · obtain ⟨target, found', isSource⟩ := sources task.name backed
      cases found.symm.trans found'
      cases task with
      | source definition => exact ⟨_, worker_backed unreplaced backed⟩
      | feature | transform | service | experiment | layer | scene => cases isSource
    · exact ⟨_, (worker_backing backed).trans ((worker?_of_build sound built task.name).2 task found)⟩
  obtain ⟨workers, provided⟩ := workersOf_ok_iff.mpr all
  exact ⟨⟨graph, workers⟩, build_eq_ok_iff.mpr ⟨passed, workers, provided, rfl⟩⟩

end Registry

-- The machines differ in nothing but the supplied tables: the first one has them all, and the other
-- one has none but those that its sources have produced, after calls of which the first knows nothing.
structure Machine.Backed (names : List String) (tables : String → Table) (machine other : Machine) : Prop where
  clock : other.clock = machine.clock
  turns : other.turns = machine.turns
  calls : ∀ backend, (∀ name ∈ names, backend ≠ .source name) → other.callsTo backend = machine.callsTo backend
  slots : ∀ name, name ∉ names → other.memo.slot? name = machine.memo.slot? name
  supplied : ∀ name ∈ names, machine.memo.slot? name = some (.filled (tables name))
  produced : ∀ name ∈ names,
    other.memo.slot? name = none ∨ other.memo.slot? name = some (.filled (tables name))

namespace Machine

variable {names : List String} {tables : String → Table} {machine other : Machine}
  (backed : machine.Backed names tables other)
include backed

theorem Backed.mark {name : String} (apart : name ∉ names) (slot : Slot) :
    (machine.mark name slot).Backed names tables (other.mark name slot) where
  clock := backed.clock
  turns := backed.turns
  calls := backed.calls
  slots target outside := by rw [slot?_mark, slot?_mark, backed.slots target outside]
  supplied target member := by
    have different : target ≠ name := fun same => apart (same ▸ member)
    rw [slot?_mark, if_neg different, backed.supplied target member]
  produced target member := by
    have different : target ≠ name := fun same => apart (same ▸ member)
    rw [slot?_mark, if_neg different]
    exact backed.produced target member

theorem Backed.record (query : Query) : (machine.record query).Backed names tables (other.record query) where
  clock := backed.clock
  turns := backed.turns
  calls backend apart := by rw [callsTo_record, callsTo_record, backed.calls backend apart]
  slots := backed.slots
  supplied := backed.supplied
  produced := backed.produced

theorem Backed.produce {name : String} (member : name ∈ names) (columns : List String) :
    machine.Backed names tables
      (((other.mark name .busy).record (.rows name columns none)).mark name (.filled (tables name))) where
  clock := backed.clock
  turns := backed.turns
  calls backend apart := by
    have other' : Backend.source name ≠ backend := (apart name member).symm
    have same := backed.calls backend apart
    have recorded := (other.mark name .busy).callsTo_record (.rows name columns none) backend
    rw [if_neg (show ¬ (Query.rows name columns none).backend = backend from other')] at recorded
    exact recorded.trans same
  slots target outside := by
    have different : target ≠ name := fun same => outside (same ▸ member)
    have same : other.memo.slot? target = machine.memo.slot? target := backed.slots target outside
    rw [slot?_mark, if_neg different]
    exact (Memo.slot?_put_of_ne .busy other.memo different).trans same
  supplied := backed.supplied
  produced target inside := by
    by_cases same : target = name
    · exact .inr (by rw [slot?_mark, if_pos same, same])
    · rw [slot?_mark, if_neg same]
      have before : ((other.mark name .busy).record (.rows name columns none)).memo.slot? target =
          other.memo.slot? target := Memo.slot?_put_of_ne .busy other.memo same
      rw [before]
      exact backed.produced target inside

theorem Backed.advanceTo (time : Nat) :
    (machine.advanceTo time).Backed names tables (other.advanceTo time) where
  clock := by rw [Machine.advanceTo, Machine.advanceTo, backed.clock]
  turns := backed.turns
  calls := backed.calls
  slots := backed.slots
  supplied := backed.supplied
  produced := backed.produced

theorem Backed.turn (schedule : Schedule) :
    (machine.turn schedule).2.Backed names tables (other.turn schedule).2 where
  clock := backed.clock
  turns := congrArg (· + 1) backed.turns
  calls := backed.calls
  slots := backed.slots
  supplied := backed.supplied
  produced := backed.produced

end Machine

def Promise.fetching (names : List String) : Promise where
  sends errand := errand.task ∈ names → errand.isFetch = true
  asks query := ∀ name ∈ names, query.backend ≠ .source name
  ends _ := True

structure Registry.Backs (registry other : Registry) (names : List String) (rows : String → List Row)
    (tables : String → Table) : Prop where
  graph : other.graph = registry.graph
  same : ∀ name, name ∉ names → other.worker? name = registry.worker? name
  backed : ∀ name ∈ names, ∃ definition, registry.graph.lookup name = some (.source definition) ∧
    other.worker? name = some (.configured (.source definition)) ∧ definition.filter = none ∧
    Table.ofRows name definition.columns (rows name) = .ok (tables name)

theorem Source.fetch_plan {definition : Source} (unfiltered : definition.filter = none) {rows : List Row}
    {table : Table} (made : Table.ofRows definition.name definition.columns rows = .ok table)
    (request : Request) :
    ∃ next, (Errand.fetch definition.name).plan request (.configured (.source definition)) =
        .ask (.rows definition.name (definition.columns.map Column.name) none) next ∧
      next (.ok rows) = .done (.ok [table]) := by
  simp [Errand.plan, Worker.process, Worker.execute, Task.plan, Source.plan, Source.query?, unfiltered,
    Plan.andThen, Source.typed, made, Outcome.single, Plan.ofTable, Plan.succeed]

section Lockstep

variable {host : Host} {registry : Registry} {names : List String} {rows : String → List Row}
  {tables : String → Table} (backs : host.registry.Backs registry names rows tables)
include backs

theorem Registry.Backs.isSource {name : String} (member : name ∈ names) :
    IsSource host.registry.graph.tasks name := by
  obtain ⟨definition, found, -⟩ := backs.backed name member
  exact ⟨_, found, rfl⟩

theorem Promise.fetching_keeps (staffed : host.registry.Staffed) (request : Request) {errand : Errand}
    (apart : errand.task ∉ names) {worker : Worker} (found : host.registry.worker? errand.task = some worker) :
    (errand.plan request worker).Keeps (Promise.fetching names) := by
  obtain ⟨task, here, serves⟩ := staffed.serves errand.task worker found
  refine (Errand.plan_keeps serves request errand).mono ?_ ?_ fun _ _ => trivial
  · intro sent sends member
    exact Graph.fetches_source staffed.sound here sends (backs.isSource member)
  · intro query asks name member asked
    have own : name = task.name := (asks name asked).2
    exact apart (Task.name_of_find? here ▸ own ▸ member)

theorem Registry.Backs.start_produces {name : String} (member : name ∈ names) (request : Request)
    {machine : Machine} (absent : machine.memo.slot? name = none) :
    ∃ columns, ∀ below, Activity.start (host.backedBy registry names rows) request below (.fetch name) machine =
      (.settled (.ok [tables name]),
        ((machine.mark name .busy).record (.rows name columns none)).mark name (.filled (tables name))) := by
  obtain ⟨definition, found, carried, unfiltered, made⟩ := backs.backed name member
  have named : definition.name = name := Task.name_of_find? found
  subst named
  have worker : (host.backedBy registry names rows).registry.worker? (Errand.fetch definition.name).task =
      some (.configured (.source definition)) := carried
  obtain ⟨next, plan, typed⟩ := Source.fetch_plan unfiltered made request
  have answered (earlier : Nat) (columns : List String) :
      (host.backedBy registry names rows).backends (.rows definition.name columns none) earlier =
        (0, .ok (rows definition.name)) := if_pos member
  refine ⟨definition.columns.map Column.name, fun below => ?_⟩
  simp only [Activity.start, absent, Activity.engage]
  rw [worker]
  dsimp only
  rw [plan]
  simp only [Activity.follow, answered, if_true, typed]
  rfl

theorem Registry.Backs.atOnce {name : String} (member : name ∈ names) (request other : Request)
    {machine machine' : Machine} (backed : machine.Backed names tables machine') :
    (Errand.fetch name).AtOnce (Machine.Backed names tables) host (host.backedBy registry names rows)
      request other machine machine' := by
  have first (below : Activity → Machine → Activity × Machine) :
      Activity.start host request below (.fetch name) machine = (.settled (.ok [tables name]), machine) := by
    simp only [Activity.start, backed.supplied name member]
  rcases backed.produced name member with absent | filled
  · obtain ⟨columns, second⟩ := backs.start_produces member other absent
    have caughtUp := backed.produce member columns
    exact ⟨tables name, machine, _, caughtUp, fun below below' => ⟨first below, second below'⟩⟩
  · have second (below : Activity → Machine → Activity × Machine) :
        Activity.start (host.backedBy registry names rows) other below (.fetch name) machine' =
          (.settled (.ok [tables name]), machine') := by
      simp only [Activity.start, filled]
    exact ⟨tables name, machine, machine', backed, fun below below' => ⟨first below, second below'⟩⟩

theorem Registry.Backs.lockstep (staffed : host.registry.Staffed) {request other : Request}
    (subject : other.subject = request.subject) (key : other.splitKey = request.splitKey)
    (texts : ∀ parameter, other.text? parameter = request.text? parameter) :
    Lockstep (.fetching names) (· ∉ names) (Machine.Backed names tables) host
      (host.backedBy registry names rows) request other where
  timeout := rfl
  schedule := rfl
  size := congrArg Graph.size backs.graph
  breadth := by
    have graph : (host.backedBy registry names rows).registry.graph = host.registry.graph := backs.graph
    rw [Host.breadth, Host.breadth, graph]
  clock backed := backed.clock
  turns backed := backed.turns
  advances time backed := backed.advanceTo time
  passes schedule backed := backed.turn schedule
  marks _ slot apart backed := backed.mark apart slot
  asks query free backed := by
    refine ⟨?_, backed.record query⟩
    rw [backed.calls query.backend free]
    cases query with
    | rows source columns filter =>
        have apart : source ∉ names := fun member => free source member rfl
        exact if_neg apart
    | scores model subject features rows => rfl
  starts errand sends backed := by
    by_cases member : errand.task ∈ names
    · have fetch := sends member
      cases errand with
      | run task input => cases fetch
      | process task => cases fetch
      | fetch name => exact .inr (backs.atOnce member request other backed)
    · have keeps (worker : Worker) (found : host.registry.worker? errand.task = some worker) :=
        Promise.fetching_keeps backs staffed request member found
      refine .inl ⟨fun _ => member, fun _ => backed.slots errand.task member, ?_, keeps⟩
      have workers : (host.backedBy registry names rows).registry.worker? errand.task =
          host.registry.worker? errand.task := backs.same errand.task member
      rw [workers]
      cases found : host.registry.worker? errand.task with
      | none => rfl
      | some worker =>
          have plans : errand.plan other worker = errand.plan request worker :=
            errand.plan_congr subject key fun _ _ parameter _ => texts parameter
          exact congrArg some plans

end Lockstep

end Curator
