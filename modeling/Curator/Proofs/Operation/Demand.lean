import Curator.CommandLine.Report
import Curator.Proofs.Graph.WellFormed
import Curator.Proofs.Operation.Refinement
import Curator.Proofs.Table.Join
/-!
What an invocation demands of its caller, and the report on the dependencies of a task. The report looks
at the configured rows of the leaves, an invocation at the registry; a registry that nothing was offered
to has a worker for a source exactly when the source has rows.
-/

set_option autoImplicit false

namespace Curator

theorem CommandLine.loadGraph_ok {files : Files} {settings : Settings} {graph : Graph}
    (loaded : loadGraph files settings = .ok graph) : ∃ flow, Graph.ofFlow flow = .ok graph := by
  simp only [loadGraph] at loaded
  split at loaded
  · rename_i own read
    cases loaded
    obtain ⟨text, -, read⟩ := Option.bind_eq_some_iff.mp read
    obtain ⟨flow, -, made⟩ := Option.bind_eq_some_iff.mp read
    exact ⟨flow, by cases accepted : Graph.ofFlow flow <;> simp_all [Except.toOption]⟩
  · cases loaded

theorem CommandLine.loadHost_ok {files : Files} {network : Network} {settings : Settings} {host : Host}
    (loaded : loadHost files network settings = .ok host) :
    ∃ graph, loadGraph files settings = .ok graph ∧ Registry.build graph .empty = .ok host.registry := by
  obtain ⟨graph, read, later⟩ := bind_ok_iff.mp loaded
  refine ⟨graph, read, ?_⟩
  cases built : Registry.build graph .empty with
  | error fault => simp [built] at later
  | ok registry =>
      simp only [built, Except.ok.injEq] at later
      exact later ▸ rfl

namespace Registry

variable {graph : Graph} {registry : Registry}

theorem has_source (sound : graph.Sound) (built : build graph .empty = .ok registry) {leaf : String}
    (source : IsSource graph.tasks leaf) : registry.has leaf = !graph.isUnsupplied leaf := by
  obtain ⟨task, found, source⟩ := source
  cases task with
  | source definition =>
      have here : graph.lookup leaf = some (.source definition) := found
      have provided : Except.ok (definition.rows.map (.inline definition)) = Except.ok (registry.worker? leaf) :=
        (worker?_of_build sound built leaf).2 _ here
      injection provided with carried
      rw [has, ← carried, Graph.isUnsupplied, here]
      cases rows : definition.rows <;> simp [rows]
  | feature | transform | service | experiment | layer | scene => cases source

def TakesAll (registry : Registry) (params : Row) (sources : List String) : Prop :=
  ∀ source ∈ sources, ∀ value, Row.value? params source = some value →
    ∃ records table, value = .array records ∧
      Table.ofRecords source (registry.declared source) records = .ok table

theorem TakesAll.lacks_iff {params : Row} {sources : List String} (takes : registry.TakesAll params sources)
    {source : String} (member : source ∈ sources) {fault : DataFault} :
    registry.Lacks params source fault ↔
      fault = .noSource ∧ Row.value? params source = none ∧ registry.has source = false := by
  constructor
  · intro lacks
    cases lacks with
    | notRecords present other =>
        obtain ⟨records, -, array, -⟩ := takes source member _ present
        exact absurd array (other records)
    | illTyped present unfit first =>
        obtain ⟨records, table, same, made⟩ := takes source member _ present
        cases same
        cases first.symm.trans made
    | noSource absent unknown => exact ⟨rfl, absent, unknown⟩
  · rintro ⟨rfl, absent, unknown⟩
    exact .noSource absent unknown

end Registry

section Demand

variable {flow : Flow} {graph : Graph} {registry : Registry} {task : String} {params : Row} {leaves : List String}

def Graph.demand? (graph : Graph) (params : Row) (leaves : List String) : Option String :=
  (leaves.filter graph.isUnsupplied).find? fun leaf => (Row.value? params leaf).isNone

theorem Registry.Lacks.demanded (sound : graph.Sound) (built : Registry.build graph .empty = .ok registry)
    (sources : ∀ leaf ∈ leaves, IsSource graph.tasks leaf) (takes : registry.TakesAll params leaves)
    {leaf : String} (member : leaf ∈ leaves) :
    (∃ fault, registry.Lacks params leaf fault) ↔
      graph.isUnsupplied leaf = true ∧ (Row.value? params leaf).isNone = true := by
  have known := Registry.has_source sound built (sources leaf member)
  simp only [takes.lacks_iff member, known, exists_and_right, exists_eq, true_and,
    Option.isNone_iff_eq_none, Bool.not_eq_false', and_comm]

theorem Registry.suppliedAll_demands (sound : graph.Sound) (built : Registry.build graph .empty = .ok registry)
    (sources : ∀ leaf ∈ leaves, IsSource graph.tasks leaf) (takes : registry.TakesAll params leaves)
    (task : String) :
    (∀ leaf, graph.demand? params leaves = some leaf →
        registry.suppliedAll task (.ofParams params) leaves = .error (.missingData task leaf .noSource)) ∧
      (graph.demand? params leaves = none →
        ∃ seeds, registry.suppliedAll task (.ofParams params) leaves = .ok seeds) := by
  have demanded (leaf : String) (member : leaf ∈ leaves) := Lacks.demanded sound built sources takes member
  rw [Graph.demand?, List.find?_filter]
  cases passed : registry.suppliedAll task (.ofParams params) leaves with
  | error failure =>
      obtain ⟨before, leaf, behind, fault, split, fine, lacks, rfl⟩ := first_of_suppliedAll passed
      have member : leaf ∈ leaves := split ▸ by simp
      -- What is refused is what the search comes to first.
      have first : leaves.find? (fun leaf => decide (graph.isUnsupplied leaf = true ∧
          (Row.value? params leaf).isNone = true)) = some leaf := by
        rw [split, List.find?_eq_some_iff_append]
        refine ⟨decide_eq_true ((demanded leaf member).mp ⟨fault, lacks⟩), before, behind, rfl, ?_⟩
        intro earlier ahead
        have provided := demanded earlier (split ▸ List.mem_append_left _ ahead)
        rw [Bool.not_eq_true', decide_eq_false_iff_not, ← provided]
        exact fun ⟨fault, lacks⟩ => fine earlier ahead fault lacks
      have own : fault = .noSource := ((takes.lacks_iff member).mp lacks).1
      rw [first, own]
      exact ⟨fun other same => Option.some.inj same ▸ rfl, fun none => nomatch none⟩
  | ok seeds =>
      refine ⟨fun leaf found => ?_, fun _ => ⟨seeds, rfl⟩⟩
      have member : leaf ∈ leaves := List.mem_of_find?_eq_some found
      have holds : decide (graph.isUnsupplied leaf = true ∧ (Row.value? params leaf).isNone = true) = true := by
        simpa using List.find?_some found
      obtain ⟨fault, lacks⟩ := (demanded leaf member).mpr (of_decide_eq_true holds)
      exact absurd lacks (not_lacks_of_suppliedAll passed member fault)

theorem Registry.relied_of_resolved {offer : Offer} (accepted : Graph.ofFlow flow = .ok graph)
    (built : Registry.build graph offer = .ok registry) (resolved : resolve graph.tasks task = .ok leaves) :
    registry.graph.reliesOn? task = some leaves := by
  rw [Registry.graph_of_build built]
  exact (Graph.reliesOn?_iff_resolve accepted task leaves).mpr resolved

theorem Host.operate_resolved {host : Host} {offer : Offer} (accepted : Graph.ofFlow flow = .ok graph)
    (built : Registry.build graph offer = .ok host.registry) (known : host.registry.has task = true)
    (resolved : resolve graph.tasks task = .ok leaves) (params : Row) (machine : Machine) :
    host.operate (.invoke task params) machine =
      match host.registry.suppliedAll task (.ofParams params) leaves with
      | .error failure => (.error failure, machine)
      | .ok seeds => host.runJob (Job.invocation task (.ofParams params) seeds) machine := by
  have operated := host.operate_invoke task params machine
  rw [if_pos known, Registry.relied_of_resolved accepted built resolved, Option.getD_some] at operated
  exact operated

theorem Host.invoke_demands {host : Host} (accepted : Graph.ofFlow flow = .ok graph)
    (built : Registry.build graph .empty = .ok host.registry) (known : host.registry.has task = true)
    (resolved : resolve graph.tasks task = .ok leaves) (takes : host.registry.TakesAll params leaves)
    (machine : Machine) :
    (∀ leaf, graph.demand? params leaves = some leaf →
        host.operate (.invoke task params) machine = (.error (.missingData task leaf .noSource), machine)) ∧
      (graph.demand? params leaves = none → ∀ owner leaf fault,
        (host.operate (.invoke task params) machine).1 ≠ .error (.missingData owner leaf fault)) := by
  have sound : graph.Sound := Graph.sound_of_ofFlow accepted
  obtain ⟨refuses, passes⟩ := Registry.suppliedAll_demands sound built
    (fun leaf member => ((mem_resolve resolved).mp member).1) takes task
  have operated := host.operate_resolved accepted built known resolved params machine
  constructor
  · intro leaf found
    rw [operated, refuses leaf found]
  · intro nothing owner leaf fault failed
    obtain ⟨seeds, passed⟩ := passes nothing
    have made : (Operation.invoke task params).job host.registry =
        .ok (Job.invocation task (.ofParams params) seeds) := by
      have job := Job.invoke_eq known params
      rw [Registry.relied_of_resolved accepted built resolved, Option.getD_some, passed] at job
      exact job
    rw [operated, passed] at failed
    obtain own | ⟨name, impossible⟩ | ⟨late, limit, impossible⟩ :=
      Host.runJob_fails (Registry.staffed_of_build sound built) made failed
    · exact own
    · cases impossible
    · cases impossible

theorem Host.invoke_undemanded {host : Host} (accepted : Graph.ofFlow flow = .ok graph)
    (built : Registry.build graph .empty = .ok host.registry) (known : host.registry.has task = true)
    (resolved : resolve graph.tasks task = .ok leaves) {leaf : String}
    (marked : leaf ∈ leaves.filter graph.isUnsupplied) (absent : Row.value? params leaf = none)
    (machine : Machine) :
    ∃ source fault, host.operate (.invoke task params) machine = (.error (.missingData task source fault), machine) := by
  obtain ⟨member, unsupplied⟩ := List.mem_filter.mp marked
  have unknown := Registry.has_source (Graph.sound_of_ofFlow accepted) built ((mem_resolve resolved).mp member).1
  rw [unsupplied, Bool.not_true] at unknown
  rw [host.operate_resolved accepted built known resolved]
  cases passed : host.registry.suppliedAll task (.ofParams params) leaves with
  | error failure =>
      obtain ⟨source, fault, rfl⟩ := Registry.suppliedAll_error passed
      exact ⟨source, fault, rfl⟩
  | ok seeds =>
      have lacks : host.registry.Lacks params leaf .noSource := .noSource absent unknown
      exact absurd lacks (Registry.not_lacks_of_suppliedAll passed member .noSource)

def Graph.bareParams (graph : Graph) (leaves : List String) : Row :=
  (leaves.filter graph.isUnsupplied).map fun leaf => (leaf, .array [])

theorem Graph.value?_bareParams (graph : Graph) (leaves : List String) (name : String) :
    Row.value? (graph.bareParams leaves) name =
      if name ∈ leaves.filter graph.isUnsupplied then some (.array []) else none := by
  by_cases demanded : name ∈ leaves.filter graph.isUnsupplied
  · rw [if_pos demanded]
    exact List.lookup_graph _ demanded
  · rw [if_neg demanded, Row.value?_eq_none_iff, Row.names, bareParams, List.map_map]
    simpa using demanded

theorem Registry.takesAll_bareParams : registry.TakesAll (graph.bareParams leaves) leaves := by
  intro source _ value present
  rw [Graph.value?_bareParams] at present
  split at present
  · cases present
    exact ⟨[], _, rfl, rfl⟩
  · cases present

theorem Graph.demand?_bareParams : graph.demand? (graph.bareParams leaves) leaves = none := by
  rw [demand?, List.find?_eq_none]
  intro leaf member absent
  rw [value?_bareParams, if_pos member] at absent
  cases absent

theorem Host.unsupplied_iff_refused {host : Host} (accepted : Graph.ofFlow flow = .ok graph)
    (built : Registry.build graph .empty = .ok host.registry) (known : host.registry.has task = true)
    (resolved : resolve graph.tasks task = .ok leaves) (name : String) :
    name ∈ leaves.filter graph.isUnsupplied ↔ ∀ params machine, Row.value? params name = none →
      ∃ leaf fault, host.operate (.invoke task params) machine = (.error (.missingData task leaf fault), machine) := by
  constructor
  · intro member params machine absent
    exact host.invoke_undemanded accepted built known resolved member absent machine
  · intro fails
    by_contra undemanded
    have absent : Row.value? (graph.bareParams leaves) name = none := by
      rw [Graph.value?_bareParams, if_neg undemanded]
    obtain ⟨leaf, fault, refused⟩ := fails _ .start absent
    have takes : host.registry.TakesAll (graph.bareParams leaves) leaves := Registry.takesAll_bareParams
    obtain ⟨-, passes⟩ := host.invoke_demands accepted built known resolved takes .start
    exact passes Graph.demand?_bareParams task leaf fault (congrArg Prod.fst refused)

theorem Host.invoke_nothing {host : Host} (accepted : Graph.ofFlow flow = .ok graph)
    (built : Registry.build graph .empty = .ok host.registry) (known : host.registry.has task = true)
    (resolved : resolve graph.tasks task = .ok leaves) (machine : Machine) :
    ((∃ owner leaf fault, (host.operate (.invoke task []) machine).1 = .error (.missingData owner leaf fault)) ↔
        leaves.filter graph.isUnsupplied ≠ []) ∧
      ∀ first others, leaves.filter graph.isUnsupplied = first :: others →
        host.operate (.invoke task []) machine = (.error (.missingData task first .noSource), machine) := by
  have takes : host.registry.TakesAll [] leaves := fun _ _ _ present => nomatch present
  obtain ⟨refuses, passes⟩ := host.invoke_demands accepted built known resolved takes machine
  have first : graph.demand? [] leaves = (leaves.filter graph.isUnsupplied).head? := by
    rw [Graph.demand?]
    cases leaves.filter graph.isUnsupplied <;> rfl
  rw [first] at refuses passes
  cases marked : leaves.filter graph.isUnsupplied with
  | nil =>
      rw [marked] at passes
      refine ⟨⟨fun ⟨owner, leaf, fault, failed⟩ => absurd failed (passes rfl owner leaf fault), ?_⟩, nofun⟩
      exact fun none => absurd rfl none
  | cons leaf others =>
      rw [marked] at refuses
      have refused := refuses leaf rfl
      refine ⟨⟨fun _ => List.cons_ne_nil _ _, fun _ => ⟨_, _, _, congrArg Prod.fst refused⟩⟩, ?_⟩
      rintro _ _ ⟨⟩
      exact refused

end Demand

namespace CommandLine

variable {files : Files} {network : Network} {settings : Settings}

theorem dependencies_report {graph : Graph} (loaded : loadGraph files settings = .ok graph) {name : String}
    {task : Task} (found : graph.lookup name = some task) {leaves : List String}
    (resolved : resolve graph.tasks name = .ok leaves) (draws : Nat → Nat) :
    (Command.dependencies name).report files network draws settings =
      .ok ([.text s!"{name} [{task.kind.name}]", .text s!"• Direct: {joined task.dependencies}",
          .text s!"• Leaf sources: {joined leaves}"] ++
        (leaves.filter graph.isUnsupplied).map fun leaf =>
          .text s!"  ! {leaf} must be supplied by the caller") := by
  simp only [Command.report, Command.withGraph?, loaded, dependencyReport, found, resolved]
  rfl

/-- What the report on the dependencies of a registered task marks are exactly the names without which no
invocation of the task gets past its checks. An invocation whose data is in order is refused for the
first of them that does not come with it, before anything has run, and does not fail for missing data
when all of them do. An invocation with no data at all is therefore refused for the first name that the
report marks, and not for data if it marks none. -/
theorem report_marks_demands {host : Host} (loaded : loadHost files network settings = .ok host) {task : String}
    (known : host.registry.has task = true) (draws : Nat → Nat) :
    ∃ definition leaves marked, host.registry.graph.lookup task = some definition ∧ marked.Sublist leaves ∧
      (Command.dependencies task).report files network draws settings =
        .ok ([.text s!"{task} [{definition.kind.name}]", .text s!"• Direct: {joined definition.dependencies}",
            .text s!"• Leaf sources: {joined leaves}"] ++
          marked.map fun leaf => .text s!"  ! {leaf} must be supplied by the caller") ∧
      (∀ name, name ∈ marked ↔ ∀ params machine, Row.value? params name = none →
        ∃ leaf fault, host.operate (.invoke task params) machine = (.error (.missingData task leaf fault), machine)) ∧
      (∀ params machine, host.registry.TakesAll params leaves →
        (∀ first, marked.find? (fun leaf => (Row.value? params leaf).isNone) = some first →
          host.operate (.invoke task params) machine = (.error (.missingData task first .noSource), machine)) ∧
        (marked.find? (fun leaf => (Row.value? params leaf).isNone) = none → ∀ owner leaf fault,
          (host.operate (.invoke task params) machine).1 ≠ .error (.missingData owner leaf fault))) ∧
      ∀ machine,
        ((∃ owner leaf fault, (host.operate (.invoke task []) machine).1 = .error (.missingData owner leaf fault)) ↔
          marked ≠ []) ∧
        ∀ first others, marked = first :: others →
          host.operate (.invoke task []) machine = (.error (.missingData task first .noSource), machine) := by
  obtain ⟨graph, read, built⟩ := loadHost_ok loaded
  obtain ⟨flow, accepted⟩ := loadGraph_ok read
  have sound : graph.Sound := Graph.sound_of_ofFlow accepted
  have same : host.registry.graph = graph := Registry.graph_of_build built
  obtain ⟨worker, carried⟩ := Option.isSome_iff_exists.mp known
  obtain ⟨definition, found, -⟩ := (Registry.staffed_of_build sound built).serves task worker carried
  rw [same] at found
  obtain ⟨leaves, resolved, relied⟩ := sound.resolved definition (Task.mem_of_find? found)
  rw [Task.name_of_find? found] at resolved relied
  exact ⟨definition, leaves, leaves.filter graph.isUnsupplied, same ▸ found, List.filter_sublist,
    dependencies_report read found resolved draws, host.unsupplied_iff_refused accepted built known resolved,
    fun params machine takes => host.invoke_demands accepted built known resolved takes machine,
    host.invoke_nothing accepted built known resolved⟩

def stockText : String :=
  "sources:\n" ++
    "- name: shops\n  columns:\n  - name: id\n    type: String\n  rows: []\n" ++
    "- name: users\n  columns:\n  - name: id\n    type: String\n" ++
    "services:\n- name: offers\n  tasks: [shops, users]\n"

def stockFiles : Files := fun path => if path = Settings.standard.flow then some stockText else none

def stockFlow : Flow :=
  { Flow.empty with
    sources := [⟨"shops", [⟨"id", .str⟩], some [], none⟩, ⟨"users", [⟨"id", .str⟩], none, none⟩]
    services := [⟨"offers", ["shops", "users"], [], none, none, true, none⟩] }

def isStockFlow : Flow → Bool
  | ⟨[⟨"shops", [⟨"id", .str⟩], some [], none⟩, ⟨"users", [⟨"id", .str⟩], none, none⟩], [], [],
      [⟨"offers", ["shops", "users"], [], none, none, true, none⟩], [], [], [], []⟩ => true
  | _ => false

theorem eq_stockFlow {flow : Flow} (same : isStockFlow flow = true) : flow = stockFlow := by
  unfold isStockFlow at same
  split at same
  · rfl
  · cases same

theorem stock_text_read : Flow.parse? stockText = some stockFlow := by
  have read : (Flow.parse? stockText).any isStockFlow = true := by decide +kernel
  obtain ⟨flow, parsed, same⟩ := (Option.any_eq_true _ _).mp read
  rw [parsed, eq_stockFlow same]

def stockGraph : Graph :=
  ⟨stockFlow.tasks, [], [("shops", []), ("users", []), ("offers", ["shops", "users"])]⟩

theorem stock_flow_accepted : Graph.ofFlow stockFlow = .ok stockGraph :=
  Graph.ofFlow_ok_iff.mpr ⟨rfl, rfl, rfl, rfl, .cons (by cbv) (.cons (by cbv) (.cons (by cbv) .nil))⟩

def stockHost : Host where
  registry := ⟨stockGraph, [("shops", .inline ⟨"shops", [⟨"id", .str⟩], some [], none⟩ []),
    ("offers", .configured (.service ⟨"offers", ["shops", "users"], [], none, none, true, none⟩))]⟩
  backends := Network.silent.backends stockGraph
  timeout := Settings.standard.timeout
  schedule := .eager

theorem stock_host_loaded : loadHost stockFiles .silent .standard = .ok stockHost := by
  have text : stockFiles Settings.standard.flow = some stockText := if_pos rfl
  have loaded : loadGraph stockFiles .standard = .ok stockGraph := by
    simp only [loadGraph, text, Option.bind_eq_bind, Option.bind_some, stock_text_read, stock_flow_accepted,
      Except.toOption]
  rw [loadHost, loaded]
  rfl

theorem stock_report_marks_users :
    ∃ front marked, (Command.dependencies "offers").report stockFiles .silent id .standard =
        .ok (front ++ marked.map fun leaf => .text s!"  ! {leaf} must be supplied by the caller") ∧
      (∃ others, marked = "users" :: others) ∧ "shops" ∉ marked ∧
      stockHost.operate (.invoke "offers" []) .start = (.error (.missingData "offers" "users" .noSource), .start) := by
  obtain ⟨definition, leaves, marked, -, -, report, demands, -, bare⟩ :=
    report_marks_demands stock_host_loaded (by decide : stockHost.registry.has "offers" = true) id
  obtain ⟨⟨marks, -⟩, names⟩ := bare .start
  have outcome : (stockHost.operate (.invoke "offers" []) .start).1 =
      .error (.missingData "offers" "users" .noSource) := rfl
  obtain ⟨first, others, rfl⟩ := List.exists_cons_of_ne_nil (marks ⟨_, _, _, outcome⟩)
  have refused := names first others rfl
  obtain rfl : first = "users" := by
    rw [refused] at outcome
    cases outcome
    rfl
  refine ⟨_, _, report, ⟨others, rfl⟩, fun member => ?_, refused⟩
  have passes : (stockHost.operate (.invoke "offers" [("users", .array [])]) .start).1.isOk = true := by
    decide +kernel
  obtain ⟨leaf, fault, failed⟩ := (demands "shops").mp member [("users", .array [])] .start rfl
  rw [failed] at passes
  cases passes

end CommandLine

end Curator
