import Curator.Proofs.Registry
/-!
When a registry can be built, and whom it has. It is built unless somebody is offered in the place of a task that is
not there or is of another kind, or an experiment ranks by a model that nobody can reach; then every task has a worker,
apart from the sources whose data comes with the request. One pass over the tasks, which uses up what is offered and
makes one client for each model, comes to the same registry.
-/

set_option autoImplicit false

namespace Curator

namespace Registry

/-! When every task can be provided for. -/

def Suits (graph : Graph) (replacement : Replacement) : Prop :=
  ∃ task, graph.lookup replacement.name = some task ∧ task.kind = replacement.kind

def Scored (graph : Graph) (offer : Offer) (model : String) : Prop :=
  model ∈ offer.models ∨
    ∃ declared, graph.model? model = some declared ∧ Address.check .ascii declared.address = .ok ()

variable {graph : Graph} {offer : Offer} {registry : Registry} {tasks : List Task} {name : String}

theorem checkReplacement_ok_iff {replacement : Replacement} :
    checkReplacement graph replacement = .ok () ↔ Suits graph replacement := by
  rw [checkReplacement, Suits]
  cases graph.lookup replacement.name with
  | none => simp
  | some task => by_cases same : task.kind = replacement.kind <;> simp [same]

theorem checkRanking_ok_iff {experiment : Experiment} :
    checkRanking graph offer experiment = .ok () ↔
      ∀ ranking, experiment.ranking = some ranking → Scored graph offer ranking.model := by
  rw [checkRanking]
  cases experiment.ranking with
  | none => simp
  | some ranking =>
      simp only [Option.some.injEq, forall_eq', Scored]
      by_cases offered : ranking.model ∈ offer.models
      · simp [offered]
      · rw [if_neg offered]
        cases graph.model? ranking.model with
        | none => simp [offered]
        | some model => simp [offered, mapError_ok_iff]

theorem worker_ok_iff {task : Task} :
    (∃ first, worker graph offer task = .ok first) ↔
      ∀ experiment, task = .experiment experiment → offer.replacement? experiment.name = none →
        ∀ ranking, experiment.ranking = some ranking → Scored graph offer ranking.model := by
  cases replaced : offer.replacement? task.name with
  | some replacement =>
      simp only [worker, replaced]
      refine iff_of_true ⟨_, rfl⟩ fun experiment same unreplaced => ?_
      subst same
      cases replaced.symm.trans unreplaced
  | none =>
      simp only [worker, replaced]
      cases task with
      | source definition =>
          refine iff_of_true ?_ fun experiment same => ?_
          · dsimp only
            split <;> exact ⟨_, rfl⟩
          · cases same
      | experiment definition =>
          have unreplaced : offer.replacement? definition.name = none := replaced
          simp only [Task.experiment.injEq, forall_eq', unreplaced, forall_const, ← checkRanking_ok_iff, bind_ok_iff, pure_ok_iff]
          constructor
          · rintro ⟨-, ⟨⟩, passed, -⟩
            exact passed
          · exact fun passed => ⟨_, (), passed, rfl⟩
      | feature | transform | service | layer | scene =>
          refine iff_of_true ⟨_, rfl⟩ fun experiment same => ?_
          cases same

theorem build_ok_iff :
    (∃ registry, build graph offer = .ok registry) ↔
      (∀ replacement, offer.InForce replacement → Suits graph replacement) ∧
        ∀ experiment ranking, .experiment experiment ∈ graph.tasks →
          (∀ replacement ∈ offer.replacements, replacement.name ≠ experiment.name) →
          experiment.ranking = some ranking → Scored graph offer ranking.model := by
  have staffed : (∀ task ∈ graph.tasks, ∃ first, worker graph offer task = .ok first) ↔
      ∀ experiment ranking, .experiment experiment ∈ graph.tasks →
        (∀ replacement ∈ offer.replacements, replacement.name ≠ experiment.name) →
        experiment.ranking = some ranking → Scored graph offer ranking.model := by
    simp only [worker_ok_iff, ← Offer.replacement?_eq_none_iff]
    constructor
    · exact fun every experiment ranking member unreplaced ranked => every _ member experiment rfl unreplaced ranking ranked
    · rintro every task member experiment rfl unreplaced ranking ranked
      exact every experiment ranking member unreplaced ranked
  have suited : (Offer.latest offer.replacements).forM (checkReplacement graph) = .ok () ↔
      ∀ replacement, offer.InForce replacement → Suits graph replacement := by
    simp only [forM_ok_iff, checkReplacement_ok_iff, Offer.mem_latest_iff, Offer.InForce]
  rw [← staffed, ← suited, ← workersOf_ok_iff]
  simp only [build_eq_ok_iff]
  constructor
  · rintro ⟨-, passed, workers, provided, -⟩
    exact ⟨passed, workers, provided⟩
  · rintro ⟨passed, workers, provided⟩
    exact ⟨_, passed, workers, provided, rfl⟩

end Registry

/-! Whom a registry has. -/

def Offer.leavesOut (offer : Offer) : Task → Bool
  | .source definition =>
      definition.rows.isNone && !offer.sources.contains definition.name &&
        !offer.replacements.any (·.name = definition.name)
  | _ => false

namespace Registry

variable {graph : Graph} {offer : Offer} {registry : Registry} {task : Task} {name : String}

theorem Provides.leavesOut {first : Option Worker} (provides : Provides offer task first) :
    offer.leavesOut task = first.isNone := by
  cases provides with
  | @replaced _ replacement counts named =>
      cases task with
      | source definition =>
          have replaced : offer.replacements.any (·.name = definition.name) = true :=
            List.any_eq_true.mpr ⟨replacement, counts.mem, decide_eq_true named⟩
          simp [Offer.leavesOut, replaced]
      | feature | transform | service | experiment | layer | scene => rfl
  | backed unreplaced offered => simp [Offer.leavesOut, offered]
  | inline unreplaced unoffered own => simp [Offer.leavesOut, own]
  | @outside definition unreplaced unoffered nothing =>
      have vacant : offer.replacements.any (·.name = definition.name) = false := by simpa using unreplaced
      simp [Offer.leavesOut, nothing, unoffered, vacant]
  | configured unreplaced inner =>
      cases task with
      | source => cases inner
      | feature | transform | service | experiment | layer | scene => rfl

theorem Provides.identity {worker : Worker} (suited : ∀ replacement, offer.InForce replacement → Suits graph replacement)
    (found : graph.lookup task.name = some task) (provides : Provides offer task (some worker)) :
    worker.name = task.name ∧ worker.kind = task.kind := by
  cases provides with
  | replaced counts named =>
      obtain ⟨target, here, same⟩ := suited _ counts
      rw [named] at here
      cases here.symm.trans found
      exact ⟨named, same.symm⟩
  | backed | inline | configured => exact ⟨rfl, rfl⟩

theorem has_iff (sound : graph.Sound) (built : build graph offer = .ok registry) :
    registry.has name = true ↔ ∃ task, graph.lookup name = some task ∧ offer.leavesOut task = false := by
  rw [has]
  cases found : graph.lookup name with
  | none => simp [(worker?_of_build sound built name).1 found]
  | some task => simp [(provides_of_build sound built found).leavesOut]

theorem namesOf_eq_filter (sound : graph.Sound) (built : build graph offer = .ok registry) (kind : Kind) :
    registry.namesOf kind =
      (graph.tasks.filter fun task => task.kind = kind && !offer.leavesOut task).map Task.name := by
  rw [namesOf, graph_of_build built, Graph.namesOf, List.filter_map, List.filter_filter]
  congr 1
  refine List.filter_congr fun task member => ?_
  have found : graph.lookup task.name = some task := Graph.lookup_of_mem sound member
  have kept : registry.has task.name = !offer.leavesOut task := by
    rw [Bool.eq_iff_iff, has_iff sound built]
    simp [found]
  simp [kept, Bool.and_comm]

end Registry

/-! One pass over the tasks, in which the offer is used up. -/

structure Pool where
  replacements : List Replacement
  models : List String

namespace Pool

def ofOffer (offer : Offer) : Pool := ⟨Offer.latest offer.replacements, offer.models⟩

def engage (graph : Graph) (pool : Pool) (experiment : Experiment) : Except RegistryFault Pool :=
  match experiment.ranking with
  | none => .ok pool
  | some ranking =>
      if ranking.model ∈ pool.models then .ok pool
      else match graph.model? ranking.model with
        | none => .error (.unknownModel experiment.name ranking.model)
        | some model => match Address.check .ascii model.address with
            | .error fault => .error (.badAddress experiment.name model.address fault)
            | .ok () => .ok { pool with models := ranking.model :: pool.models }

def supply (graph : Graph) (sources : List String) (pool : Pool) (task : Task) :
    Except RegistryFault (Option Worker × Pool) :=
  match pool.replacements.find? (·.name = task.name) with
  | some replacement =>
      .ok (some (.replaced replacement), { pool with replacements := pool.replacements.filter (·.name ≠ task.name) })
  | none => match task with
      | .source definition =>
          if definition.name ∈ sources then .ok (some (.configured task), pool)
          else .ok (definition.rows.map (.inline definition), pool)
      | .experiment definition => do
          let rest ← pool.engage graph definition
          return (some (.configured task), rest)
      | task => .ok (some (.configured task), pool)

def staff (graph : Graph) (sources : List String) : Pool → List Task → Except RegistryFault (List (String × Worker))
  | _, [] => .ok []
  | pool, task :: rest => do
      let (first, left) ← pool.supply graph sources task
      let others ← left.staff graph sources rest
      return match first with
        | some worker => (task.name, worker) :: others
        | none => others

structure Covers (graph : Graph) (offer : Offer) (tasks : List Task) (pool : Pool) : Prop where
  replaces : ∀ task ∈ tasks, pool.replacements.find? (·.name = task.name) = offer.replacement? task.name
  offered : ∀ model ∈ offer.models, model ∈ pool.models
  scored : ∀ model ∈ pool.models, Registry.Scored graph offer model

variable {graph : Graph} {offer : Offer} {pool left : Pool} {task : Task} {tasks rest : List Task}

theorem covers_ofOffer (graph : Graph) (offer : Offer) (tasks : List Task) : (ofOffer offer).Covers graph offer tasks where
  replaces _ _ := rfl
  offered _ member := member
  scored _ member := .inl member

theorem Covers.behind (covers : pool.Covers graph offer (task :: rest)) : pool.Covers graph offer rest where
  replaces later member := covers.replaces later (List.mem_cons_of_mem _ member)
  offered := covers.offered
  scored := covers.scored

theorem Covers.used (covers : pool.Covers graph offer (task :: rest)) (single : ∀ later ∈ rest, later.name ≠ task.name) :
    { pool with replacements := pool.replacements.filter (·.name ≠ task.name) : Pool }.Covers graph offer rest where
  replaces later member := by
    rw [← covers.replaces later (List.mem_cons_of_mem _ member), List.find?_filter]
    have apart := single later member
    congr 1
    funext replacement
    by_cases named : replacement.name = later.name
    · simp [named, apart]
    · simp [named]
  offered := covers.offered
  scored := covers.scored

theorem Covers.engaged (covers : pool.Covers graph offer rest) (experiment : Experiment) :
    (pool.engage graph experiment).map (fun _ => ()) = Registry.checkRanking graph offer experiment ∧
      ∀ left, pool.engage graph experiment = .ok left → left.Covers graph offer rest := by
  rw [engage, Registry.checkRanking]
  cases experiment.ranking with
  | none => exact ⟨rfl, fun left same => Except.ok.inj same ▸ covers⟩
  | some ranking =>
      dsimp only
      by_cases known : ranking.model ∈ pool.models
      · rw [if_pos known]
        refine ⟨?_, fun left same => Except.ok.inj same ▸ covers⟩
        rcases covers.scored ranking.model known with offered | ⟨declared, found, reachable⟩
        · rw [if_pos offered]
          rfl
        · rw [found]
          split
          · rfl
          · simp only [reachable]
            rfl
      · rw [if_neg known, if_neg fun offered => known (covers.offered ranking.model offered)]
        cases found : graph.model? ranking.model with
        | none => exact ⟨rfl, fun left same => nomatch same⟩
        | some model =>
            dsimp only
            cases reachable : Address.check .ascii model.address with
            | error fault => exact ⟨rfl, fun left same => nomatch same⟩
            | ok =>
                refine ⟨rfl, fun left same => Except.ok.inj same ▸ ⟨covers.replaces, fun other offered => ?_, ?_⟩⟩
                · exact List.mem_cons_of_mem _ (covers.offered other offered)
                · exact List.forall_mem_cons.mpr ⟨.inr ⟨model, found, reachable⟩, covers.scored⟩

theorem Covers.supplied (covers : pool.Covers graph offer (task :: rest)) (single : ∀ later ∈ rest, later.name ≠ task.name) :
    (pool.supply graph offer.sources task).map Prod.fst = Registry.worker graph offer task ∧
      ∀ first left, pool.supply graph offer.sources task = .ok (first, left) → left.Covers graph offer rest := by
  have same := covers.replaces task List.mem_cons_self
  cases replaced : offer.replacement? task.name with
  | some replacement =>
      simp only [supply, Registry.worker, same, replaced]
      refine ⟨rfl, fun first left taken => ?_⟩
      cases taken
      exact covers.used single
  | none =>
      simp only [supply, Registry.worker, same, replaced]
      cases task with
      | source definition =>
          dsimp only
          split
          · refine ⟨rfl, fun first left taken => ?_⟩
            cases taken
            exact covers.behind
          · refine ⟨rfl, fun first left taken => ?_⟩
            cases taken
            exact covers.behind
      | experiment definition =>
          obtain ⟨checked, further⟩ := covers.behind.engaged definition
          dsimp only
          rw [← checked]
          cases engaged : pool.engage graph definition with
          | error fault =>
              refine ⟨rfl, fun first left taken => ?_⟩
              cases taken
          | ok after =>
              refine ⟨rfl, fun first left taken => ?_⟩
              cases taken
              exact further after engaged
      | feature | transform | service | layer | scene =>
          refine ⟨rfl, fun first left taken => ?_⟩
          cases taken
          exact covers.behind

theorem Covers.staffs (covers : pool.Covers graph offer tasks) (distinct : (tasks.map Task.name).Nodup) :
    pool.staff graph offer.sources tasks = Registry.workersOf graph offer tasks := by
  induction tasks generalizing pool with
  | nil => rfl
  | cons task rest ih =>
      obtain ⟨fresh, others⟩ := List.nodup_cons.mp distinct
      have single : ∀ later ∈ rest, later.name ≠ task.name :=
        fun later member same => fresh (List.mem_map.mpr ⟨later, member, same⟩)
      obtain ⟨same, further⟩ := covers.supplied single
      rw [staff, Registry.workersOf, ← same]
      cases supplied : pool.supply graph offer.sources task with
      | error fault => rfl
      | ok result =>
          change (result.2.staff graph offer.sources rest >>= _) =
            (Registry.workersOf graph offer rest >>= fun others => _)
          exact ih (further result.1 result.2 supplied) others ▸ rfl

end Pool

namespace Registry

variable {graph : Graph} {offer : Offer} {model : String}

def buildInOnePass (graph : Graph) (offer : Offer) : Except RegistryFault Registry := do
  (Offer.latest offer.replacements).forM (checkReplacement graph)
  return ⟨graph, ← (Pool.ofOffer offer).staff graph offer.sources graph.tasks⟩

theorem build_eq_buildInOnePass (sound : graph.Sound) : build graph offer = buildInOnePass graph offer := by
  rw [build, buildInOnePass, (Pool.covers_ofOffer graph offer graph.tasks).staffs sound.distinct]

theorem not_suits_iff {replacement : Replacement} :
    ¬ Suits graph replacement ↔ graph.lookup replacement.name = none ∨
      ∃ task, graph.lookup replacement.name = some task ∧ task.kind ≠ replacement.kind := by
  rw [Suits]
  cases graph.lookup replacement.name <;> simp

theorem not_scored_iff :
    ¬ Scored graph offer model ↔ model ∉ offer.models ∧ (graph.model? model = none ∨
      ∃ declared fault, graph.model? model = some declared ∧ Address.check .ascii declared.address = .error fault) := by
  rw [Scored, not_or]
  refine and_congr_right fun _ => ?_
  cases graph.model? model with
  | none => simp
  | some declared => cases reachable : Address.check .ascii declared.address <;> simp [reachable]

theorem build_failed_iff :
    (∃ fault, build graph offer = .error fault) ↔
      (∃ replacement, offer.InForce replacement ∧ ¬ Suits graph replacement) ∨
        ∃ experiment ranking, .experiment experiment ∈ graph.tasks ∧
          (∀ replacement ∈ offer.replacements, replacement.name ≠ experiment.name) ∧
          experiment.ranking = some ranking ∧ ¬ Scored graph offer ranking.model := by
  rw [failed_iff_not_ok, build_ok_iff, not_and_or]
  push Not
  rfl

/-- A registry cannot be built just when a replacement in force stands for no task or for one of another kind, or an
experiment that nobody replaces ranks by a model that has no scorer and no address to reach one. The registry that is
built has all tasks apart from the sources that are left out, each under its own name and as its own kind, and lists
them in the order of the graph. -/
theorem build_complete {flow : Flow} (accepted : Graph.ofFlow flow = .ok graph) (offer : Offer) :
    build graph offer = buildInOnePass graph offer ∧
      ((∃ fault, build graph offer = .error fault) ↔
        (∃ replacement, offer.InForce replacement ∧ (graph.lookup replacement.name = none ∨
          ∃ task, graph.lookup replacement.name = some task ∧ task.kind ≠ replacement.kind)) ∨
        ∃ experiment ranking, .experiment experiment ∈ graph.tasks ∧
          (∀ replacement ∈ offer.replacements, replacement.name ≠ experiment.name) ∧
          experiment.ranking = some ranking ∧ ranking.model ∉ offer.models ∧ (graph.model? ranking.model = none ∨
            ∃ declared fault, graph.model? ranking.model = some declared ∧
              Address.check .ascii declared.address = .error fault)) ∧
      ∀ registry, build graph offer = .ok registry →
        (∀ name, registry.has name = true ↔ ∃ task, graph.lookup name = some task ∧ offer.leavesOut task = false) ∧
        (∀ name worker, registry.worker? name = some worker →
          worker.name = name ∧ ∃ task, graph.lookup name = some task ∧ worker.kind = task.kind) ∧
        ∀ kind, registry.namesOf kind =
          (graph.tasks.filter fun task => task.kind = kind && !offer.leavesOut task).map Task.name := by
  have sound : graph.Sound := Graph.sound_of_ofFlow accepted
  refine ⟨build_eq_buildInOnePass sound, ?_, fun registry built => ⟨fun name => has_iff sound built, ?_,
    namesOf_eq_filter sound built⟩⟩
  · simp only [build_failed_iff, not_suits_iff, not_scored_iff]
  · intro name worker carried
    have suited := (build_ok_iff.mp ⟨registry, built⟩).1
    obtain ⟨task, found, provides⟩ := task_of_build sound built carried
    have same : task.name = name := Task.name_of_find? found
    obtain ⟨named, kind⟩ := provides.identity suited (same.symm ▸ found)
    exact ⟨named.trans same, task, found, kind⟩

def tasteFlow : Flow :=
  { Flow.empty with
    sources := [⟨"items", [⟨"id", .str⟩], some [[("id", .string "i1")]], none⟩, ⟨"users", [⟨"id", .str⟩], none, none⟩]
    services := [⟨"recall", ["items"], [], none, none, false, none⟩]
    experiments := [⟨"ranked", ["recall"], some ⟨"taste", ["id"], "score", none⟩⟩]
    models := [⟨"taste", "", none⟩] }

def tasteGraph : Graph :=
  ⟨tasteFlow.tasks, tasteFlow.models, [("items", []), ("users", []), ("recall", ["items"]), ("ranked", ["items"])]⟩

theorem taste_flow_accepted : Graph.ofFlow tasteFlow = .ok tasteGraph :=
  Graph.ofFlow_ok_iff.mpr ⟨rfl, rfl, rfl, rfl,
    .cons (by cbv) (.cons (by cbv) (.cons (by cbv) (.cons (by cbv) .nil)))⟩

theorem taste_ranked_by_scorer :
    Graph.ofFlow tasteFlow = .ok tasteGraph ∧ (∃ fault, build tasteGraph .empty = .error fault) ∧
      ∃ registry, build tasteGraph ⟨[], ["taste"], []⟩ = .ok registry ∧
        registry.namesOf .dataService = ["items"] ∧ registry.has "users" = false := by
  obtain ⟨-, refused, -⟩ := build_complete taste_flow_accepted .empty
  have unreachable : ∃ declared fault, tasteGraph.model? "taste" = some declared ∧
      Address.check .ascii declared.address = .error fault := ⟨⟨"taste", "", none⟩, .emptyText, rfl, rfl⟩
  refine ⟨taste_flow_accepted, refused.mpr (.inr ⟨⟨"ranked", ["recall"], some ⟨"taste", ["id"], "score", none⟩⟩, _,
    List.mem_of_getElem? (i := 3) rfl, nofun, rfl, nofun, .inr unreachable⟩), _, rfl, ?_⟩
  obtain ⟨present, -, listed⟩ := (build_complete taste_flow_accepted ⟨[], ["taste"], []⟩).2.2 _ rfl
  refine ⟨listed .dataService, ?_⟩
  rw [Bool.eq_false_iff, Ne, present]
  rintro ⟨task, found, kept⟩
  cases found
  exact nomatch kept

end Registry

end Curator
