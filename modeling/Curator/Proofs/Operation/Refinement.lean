import Curator.Proofs.Operation.Job
/-!
Operations answer as their reference does. With a memo that tasks share, siblings side by side and any delays, an
operation succeeds only with the rows of the reference, and unless time runs out it fails exactly when the reference
does.
-/

set_option autoImplicit false

namespace Curator

theorem Memo.faithful_of_seedAll {registry : Registry} {answers : Answers} {request : Request}
    {seeds : List Table} {meaning : Errand → Outcome}
    (means : Errand.Means registry answers request seeds meaning) (machine : Machine) :
    Activity.Faithful meaning seeds (machine.withMemo (Memo.seedAll [] seeds)) where
  means _ _ filled := means.supplied (.fetch _) _ (Memo.cached_of_slot? filled)
  supplied _ _ given := Memo.slot?_of_cached given

theorem Activity.owns_of_start (time : Nat) (plan : Plan) (machine : Machine) :
    Activity.Owns (.sleeping none time plan) machine :=
  fun name => by simp [Activity.holdings, Activity.held]

variable {host : Host} {answers : Answers}

namespace Job

def reference (registry : Registry) (answers : Answers) (job : Job) : Reference where
  registry := registry
  answers := answers
  request := job.request
  supplied name := job.seeds.find? (·.name = name)

def meaning (registry : Registry) (answers : Answers) (job : Job) : Outcome :=
  job.plan.evaluate answers ((job.reference registry answers).perform (job.reference registry answers).run)

theorem reference_supplied (registry : Registry) (answers : Answers) (job : Job) (name : String) :
    (job.reference registry answers).supplied name = Memo.cached? (Memo.seedAll [] job.seeds) name := by
  change job.seeds.find? (·.name = name) = _
  rw [Memo.cached?, Memo.slot?_of_seeds]
  cases job.seeds.find? (·.name = name) <;> rfl

theorem means {registry : Registry} (staffed : registry.Staffed) (answers : Answers) (job : Job) :
    Errand.Means registry answers job.request job.seeds
      ((job.reference registry answers).perform (job.reference registry answers).run) :=
  Reference.means_perform (job.reference_supplied registry answers) staffed

variable {registry : Registry}

theorem meaning_invocation (task : String) (request : Request) (seeds : List Table) :
    (invocation task request seeds).meaning registry answers = do
      let outputs ← ((invocation task request seeds).reference registry answers).run task []
      if outputs.isEmpty then throw (.executionFailed task .noOutput) else return outputs := by
  let reference := (invocation task request seeds).reference registry answers
  refine (@Reference.evaluate_stage reference reference.run [task] [] _).trans ?_
  rw [Reference.stage_single]
  refine bind_congr fun outputs => ?_
  cases outputs <;> rfl

theorem meaning_pipeline (task : String) (request : Request) (first : List String) :
    (pipeline task request first).meaning registry answers = do
      let produced ← Reference.stage ((pipeline task request first).reference registry answers).run [] first
      let target ← ((pipeline task request first).reference registry answers).run task produced
      if produced.isEmpty && target.isEmpty then throw (.executionFailed task .noPipelineOutput)
      else return produced ++ target := by
  let reference := (pipeline task request first).reference registry answers
  refine (@Reference.evaluate_stage reference reference.run first [] _).trans ?_
  refine bind_congr fun produced => ?_
  rw [Reference.evaluate_stage, Reference.stage_single]
  refine bind_congr fun target => ?_
  cases produced.isEmpty && target.isEmpty <;> rfl

end Job

namespace Operation

variable {registry : Registry} {answers : Answers}

def rows (tables : List Table) : Operation → List Row
  | .invoke _ _ | .recommend _ _ => tables.flatMap Table.rows
  | .recommendFor _ subject _ => (tables.flatMap Table.rows).map (stamp subject)

theorem reply_ok (operation : Operation) (tables : List Table) :
    operation.reply (.ok tables) = ⟨0, "success", operation.rows tables, operation.subject?⟩ := by
  cases operation <;> rfl

theorem require_eq (tasks : List String) :
    require registry tasks = match Job.unknown? registry tasks with
      | some name => .error (.taskNotFound name)
      | none => .ok () := by
  induction tasks with
  | nil => rfl
  | cons task rest ih =>
      rw [require, Job.unknown?, List.find?_cons]
      cases known : registry.has task with
      | true => exact ih
      | false => rfl

theorem bring_eq (task : String) (params : Row) (source : String) :
    bring registry task params source = registry.supplied task (.ofParams params) source := by
  have param : (Request.ofParams params).param? source = Row.value? params source := rfl
  rw [bring, Registry.supplied, param]
  cases Row.value? params source with
  | none => rfl
  | some value =>
      cases value with
      | array records =>
          dsimp only
          cases registry.graph.lookup source with
          | none =>
              simp only [Option.map_none, Option.getD_none]
              cases Table.ofRecords source [] records <;> rfl
          | some definition =>
              simp only [Option.map_some, Option.getD_some]
              cases Table.ofRecords source definition.columns records <;> rfl
      | null | bool | number | string | object => rfl

theorem mapM_bring (task : String) (params : Row) (sources : List String) :
    (do return (← sources.mapM (bring registry task params)).filterMap id) =
      registry.suppliedAll task (.ofParams params) sources := by
  induction sources with
  | nil => rfl
  | cons source rest ih =>
      rw [Registry.suppliedAll, ← ih, ← bring_eq, List.mapM_cons]
      cases bring registry task params source with
      | error failure => rfl
      | ok first =>
          cases rest.mapM (bring registry task params) with
          | error failure => rfl
          | ok others => cases first <;> rfl

theorem mapM_string (task : String) (names : List Json) :
    names.mapM (m := Except Failure) (fun
      | .string name => return name
      | _ => throw (.missingData task "preTasks" .notTaskNames)) = match names.mapM Json.string? with
      | some names => .ok names
      | none => .error (.missingData task "preTasks" .notTaskNames) := by
  induction names with
  | nil => rfl
  | cons name rest ih =>
      rw [List.mapM_cons, List.mapM_cons, ih]
      cases name with
      | string text => cases rest.mapM Json.string? <;> rfl
      | null | bool | number | array | object => rfl

theorem taskNames_eq (task : String) (params : Row) :
    taskNames task (Row.value? params "preTasks") = Job.preceding task params := by
  rw [Job.preceding, Job.precedingParam]
  cases Row.value? params "preTasks" with
  | none => rfl
  | some value =>
      cases value with
      | array names => exact mapM_string task names
      | null | bool | number | string | object => rfl

theorem evaluate_invoke (task : String) (params : Row) :
    (Operation.invoke task params).evaluate registry answers = do
      let job ← Job.invoke registry task params
      return (← job.meaning registry answers).flatMap Table.rows := by
  cases known : registry.has task with
  | false =>
      have refused : require registry [task] = .error (.taskNotFound task) := by
        rw [require, known]
        rfl
      rw [evaluate, refused, Job.invoke_unknown known]
      rfl
  | true =>
      have passes : require registry [task] = .ok () := by
        rw [require, known]
        rfl
      rw [evaluate, passes, Job.invoke_eq known, ← mapM_bring]
      cases ((registry.graph.reliesOn? task).getD []).mapM (bring registry task params) with
      | error failure => rfl
      | ok brought =>
          let job := Job.invocation task (.ofParams params) (brought.filterMap id)
          change _ = do return (← job.meaning registry answers).flatMap Table.rows
          rw [Job.meaning_invocation]
          change (do
            let outputs ← (job.reference registry answers).run task []
            _) = _
          cases (job.reference registry answers).run task [] with
          | error failure => rfl
          | ok outputs => cases outputs <;> rfl

theorem evaluate_recommend (task : String) (params : Row) :
    (Operation.recommend task params).evaluate registry answers = do
      let job ← Job.recommend registry task params
      return (← job.meaning registry answers).flatMap Table.rows := by
  rw [evaluate, taskNames_eq, Job.recommend]
  cases Job.preceding task params with
  | error failure => rfl
  | ok first =>
      change (require registry (first ++ [task]) >>= _) = (match Job.unknown? registry (first ++ [task]) with
        | some name => throw (.taskNotFound name)
        | none => return Job.pipeline task (.ofParams params) first) >>= _
      rw [require_eq]
      cases Job.unknown? registry (first ++ [task]) with
      | some name => rfl
      | none =>
          let job := Job.pipeline task (.ofParams params) first
          let reference := job.reference registry answers
          change (Reference.stage reference.run [] first >>= fun produced => reference.run task produced >>= _) =
            job.meaning registry answers >>= _
          rw [Job.meaning_pipeline, bind_assoc]
          refine bind_congr fun produced => ?_
          rw [bind_assoc]
          refine bind_congr fun target => ?_
          cases produced.isEmpty && target.isEmpty with
          | true => rfl
          | false => exact congrArg Except.ok List.flatMap_append.symm

theorem evaluate_recommendFor (scene subject : String) (params : Row) :
    (Operation.recommendFor scene subject params).evaluate registry answers = do
      let job ← Job.recommendFor registry scene subject params
      return ((← job.meaning registry answers).flatMap Table.rows).map (stamp subject) := by
  rw [evaluate, Job.recommendFor]
  by_cases unknown : (registry.workerOf? .scene scene).isNone = true
  · simp only [if_pos unknown]
    rfl
  · simp only [if_neg unknown]
    by_cases blank : Text.allBlank subject = true
    · simp only [if_pos blank]
      rfl
    · simp only [if_neg blank]
      let job : Job := ⟨⟨params, some subject⟩, [], 1, .send [.process scene] .succeed⟩
      let reference := job.reference registry answers
      change (Reference.alone reference.run scene >>= _) = job.meaning registry answers >>= _
      have means : job.meaning registry answers = do return [← Reference.alone reference.run scene] := by
        refine (Plan.evaluate_send [.process scene] .succeed).trans ?_
        rw [Plan.inTurn, Reference.perform]
        cases Reference.alone reference.run scene <;> rfl
      rw [means]
      cases Reference.alone reference.run scene with
      | error failure => rfl
      | ok table => exact congrArg Except.ok (congrArg (List.map (stamp subject)) (List.flatMap_singleton _ table).symm)

theorem evaluate_eq (operation : Operation) :
    operation.evaluate registry answers = do
      let job ← operation.job registry
      return operation.rows (← job.meaning registry answers) := by
  cases operation with
  | invoke task params => exact evaluate_invoke task params
  | recommend task params => exact evaluate_recommend task params
  | recommendFor scene subject params => exact evaluate_recommendFor scene subject params

end Operation

theorem Activity.Run.reports (staffed : host.registry.Staffed)
    (pure : ∀ query earlier, (host.backends query earlier).2 = answers query) {job : Job} {steps : Nat}
    {machine after : Machine} {outcome : Outcome}
    (run : Run host job.request steps (.sleeping none machine.clock job.plan)
      (machine.withMemo (Memo.seedAll [] job.seeds)) (.settled outcome) after) :
    outcome.Reports (job.meaning host.registry answers) := by
  have means := job.means staffed answers
  have computes := run.computes means pure (owns_of_start _ _ _) (Memo.faithful_of_seedAll means machine)
    (.sleeping (fun name own => by simp [held] at own) rfl)
  cases computes with
  | settled reports => exact reports

theorem Host.runJob_fails (staffed : host.registry.Staffed) {operation : Operation} {job : Job}
    (made : operation.job host.registry = .ok job) {machine : Machine} {failure : Failure}
    (failed : (host.runJob job machine).1 = .error failure) :
    failure.IsOwn ∨ (∃ name, failure = .taskNotFound name) ∨ ∃ task limit, failure = .timedOut task limit := by
  let known : Promise := ⟨fun _ => True, fun _ => True, fun outcome => ∀ failure, outcome = .error failure →
    failure.IsOwn ∨ (∃ name, failure = .taskNotFound name) ∨ ∃ task limit, failure = .timedOut task limit⟩
  have kept : known.Kept host job.request :=
    { carried := fun errand worker _ found =>
        (staffed.plan_descends job.request found).mono (fun _ _ => trivial) (fun _ _ => trivial)
          fun outcome own failure failed => .inl (own failure failed)
      recalled := fun table failure failed => nomatch failed
      late := by
        intro task failure failed
        cases failed
        exact .inr (.inr ⟨task, host.timeout, rfl⟩) }
  obtain ⟨steps, run⟩ := host.runJob_settles staffed made machine
  have keeps : job.plan.Keeps known :=
    (Operation.job_keeps made).mono (fun _ _ => trivial) (fun _ never => never.elim)
      fun outcome own failure failed => .inl (own failure failed)
  have settled := run.keeps kept (Activity.owns_of_start _ _ _)
    (fun errand between _ _ _ _ failure failed => by
      cases failed
      exact .inr (.inl ⟨errand.task, rfl⟩))
    (.start keeps machine.clock)
  cases settled with
  | settled ends => exact ends failure failed

theorem Host.runJob_finished (staffed : host.registry.Staffed) {operation : Operation} {job : Job}
    (made : operation.job host.registry = .ok job) (machine : Machine) :
    (host.runJob job machine).1 ≠ .error .unfinished := by
  intro failed
  obtain own | ⟨name, impossible⟩ | ⟨task, limit, impossible⟩ := Host.runJob_fails staffed made failed
  · exact own
  · cases impossible
  · cases impossible

theorem Job.meaning_finished {registry : Registry} (staffed : registry.Staffed) {operation : Operation} {job : Job}
    (made : operation.job registry = .ok job) : job.meaning registry answers ≠ .error .unfinished := by
  intro unfinished
  rcases Plan.evaluate_error (Operation.job_keeps made) unfinished with own | ⟨errand, -, failed⟩
  · exact own .unfinished rfl
  · have enough : rank registry.graph.tasks errand.task < registry.graph.size + 1 :=
      Nat.lt_succ_of_le (Graph.rank_le_size staffed.sound errand.task)
    exact Reference.perform_finished (job.reference_supplied registry answers) staffed _ enough failed

theorem Operation.evaluate_finished {registry : Registry} (staffed : registry.Staffed) (operation : Operation) :
    operation.evaluate registry answers ≠ .error .unfinished := by
  intro unfinished
  rw [evaluate_eq] at unfinished
  rcases bind_error_iff.mp unfinished with refused | ⟨job, made, later⟩
  · exact Operation.job_isUpFront refused
  · rcases bind_error_iff.mp later with failed | ⟨tables, -, impossible⟩
    · exact Job.meaning_finished staffed made failed
    · cases impossible

theorem Host.operate_finished (staffed : host.registry.Staffed) (operation : Operation) (machine : Machine) :
    (host.operate operation machine).1 ≠ .error .unfinished := by
  rw [Host.operate]
  cases made : operation.job host.registry with
  | error failure =>
      intro unfinished
      cases unfinished
      exact Operation.job_isUpFront made
  | ok job => exact host.runJob_finished staffed made machine

/-- An answer agrees with a reference: a success has the rows of the reference, and unless time ran out an answer is a
failure exactly when the reference fails. -/
structure Operation.Agrees (operation : Operation) (reference : Except Failure (List Row)) (outcome : Outcome)
    (answer : Envelope) : Prop where
  exact : answer.isSuccess = true →
    ∃ rows, reference = .ok rows ∧ answer = ⟨0, "success", rows, operation.subject?⟩
  fails : (∀ failure, outcome = .error failure → failure.isTimeout = false) →
    (answer.isSuccess = false ↔ ∃ cause, reference = .error cause)

theorem Operation.agrees_of_refused {registry : Registry} {operation : Operation} {failure : Failure}
    (refused : operation.evaluate registry answers = .error failure) (cause : Failure) :
    operation.Agrees (operation.evaluate registry answers) (.error cause) (operation.reply (.error cause)) where
  exact success := nomatch success
  fails _ := ⟨fun _ => ⟨failure, refused⟩, fun _ => rfl⟩

theorem Operation.agrees_of_reports {registry : Registry} {operation : Operation} {job : Job}
    (made : operation.job registry = .ok job) {outcome : Outcome}
    (reports : outcome.Reports (job.meaning registry answers)) :
    operation.Agrees (operation.evaluate registry answers) outcome (operation.reply outcome) := by
  have meant : operation.evaluate registry answers = do return operation.rows (← job.meaning registry answers) := by
    rw [evaluate_eq, made]
    rfl
  cases outcome with
  | ok tables =>
      have rows : operation.evaluate registry answers = .ok (operation.rows tables) := by
        rw [meant, reports.exact tables rfl]
        rfl
      rw [reply_ok, rows]
      constructor
      · exact fun _ => ⟨_, rfl, rfl⟩
      · intro _
        constructor
        · exact fun failed => nomatch failed
        · exact fun ⟨_, failed⟩ => nomatch failed
  | error failure =>
      constructor
      · exact fun success => nomatch success
      · intro early
        obtain ⟨cause, fails⟩ := reports.fails failure rfl (early failure rfl)
        have refused : operation.evaluate registry answers = .error cause := by
          rw [meant, fails]
          rfl
        exact (agrees_of_refused refused failure).fails early

/-- For every accepted graph, every registry and every operation, with backends that answer a query always the same, the
answer agrees with the reference, whatever the delays and the turns are, and so does what any other order of the steps
comes to. Both come to an end, and they refuse an operation up front for the same reason. -/
theorem Host.operate_refines {flow : Flow} {graph : Graph} {offer : Offer}
    (accepted : Graph.ofFlow flow = .ok graph) (built : Registry.build graph offer = .ok host.registry)
    (pure : ∀ query earlier, (host.backends query earlier).2 = answers query) (operation : Operation)
    (machine : Machine) :
    let reference := operation.evaluate host.registry answers
    let outcome := (host.operate operation machine).1
    operation.Agrees reference outcome (host.answer operation machine).1 ∧
      outcome ≠ .error .unfinished ∧ reference ≠ .error .unfinished ∧
      (∀ failure, operation.job host.registry = .error failure →
        outcome = .error failure ∧ reference = .error failure) ∧
      ∀ job steps other after, operation.job host.registry = .ok job →
        Activity.Run host job.request steps (.sleeping none machine.clock job.plan)
          (machine.withMemo (Memo.seedAll [] job.seeds)) (.settled other) after →
        operation.Agrees reference other (operation.reply other) := by
  intro reference outcome
  have staffed := Registry.staffed_of_build (Graph.sound_of_ofFlow accepted) built
  have answered : (host.answer operation machine).1 = operation.reply outcome := rfl
  have refuses (failure : Failure) (refused : operation.job host.registry = .error failure) :
      outcome = .error failure ∧ reference = .error failure := by
    constructor
    · exact congrArg Prod.fst (host.operate_refused operation refused machine)
    · change operation.evaluate host.registry answers = .error failure
      rw [Operation.evaluate_eq, refused]
      rfl
  refine ⟨?_, host.operate_finished staffed operation machine, Operation.evaluate_finished staffed operation, refuses,
    fun job steps other after made run => Operation.agrees_of_reports made (run.reports staffed pure)⟩
  rw [answered]
  cases made : operation.job host.registry with
  | error failure =>
      obtain ⟨failed, refused⟩ := refuses failure made
      rw [failed]
      exact Operation.agrees_of_refused refused failure
  | ok job =>
      obtain ⟨steps, run⟩ := host.runJob_settles staffed made machine
      have same : outcome = (host.runJob job machine).1 :=
        congrArg Prod.fst (host.operate_made operation made machine)
      rw [same]
      exact Operation.agrees_of_reports made (run.reports staffed pure)

def sharedFlow : Flow :=
  { Flow.empty with
    sources := [⟨"items", [⟨"id", .str⟩], none, none⟩, ⟨"users", [⟨"id", .str⟩], none, none⟩]
    features := [⟨"fresh", ["items"], none, []⟩, ⟨"liked", ["items", "users"], none, []⟩]
    services := [⟨"candidates", ["fresh", "liked"], [], none, none, false, none⟩] }

def sharedGraph : Graph :=
  ⟨sharedFlow.tasks, [], [("items", []), ("users", []), ("fresh", ["items"]),
    ("liked", ["items", "users"]), ("candidates", ["items", "users"])]⟩

def sharedRegistry : Registry :=
  ⟨sharedGraph, (sharedFlow.tasks.filter (·.name ≠ "users")).map fun task => (task.name, .configured task)⟩

def sharedAnswers : Answers
  | .rows _ _ _ => .ok [[("id", .string "i1")], [("id", .string "i2")]]
  | .scores _ _ _ _ => .ok []

def sharedHost : Host where
  registry := sharedRegistry
  backends query _ := (3, sharedAnswers query)
  timeout := 1000
  schedule := ⟨fun turn => decide (3 ≤ turn), 3, fun _ late => decide_eq_true late⟩

def sharedParams : Row := [("users", .array [.object [("id", .string "u1")]])]

theorem shared_flow_accepted : Graph.ofFlow sharedFlow = .ok sharedGraph :=
  Graph.ofFlow_ok_iff.mpr ⟨rfl, rfl, rfl, rfl,
    .cons (by cbv) (.cons (by cbv) (.cons (by cbv) (.cons (by cbv) (.cons (by cbv) .nil))))⟩

theorem shared_registry_built : Registry.build sharedGraph ⟨["items"], [], []⟩ = .ok sharedRegistry := rfl

def feed : Scene := ⟨"feed", ["home"], [⟨"title", .str⟩], some 1⟩

def homeFlow : Flow :=
  { Flow.empty with
    sources := [⟨"trending", [⟨"id", .str⟩], some [[("id", .string "t1")]], none⟩,
      ⟨"items", [⟨"id", .str⟩], none, none⟩]
    services := [⟨"home", ["items"], [], none, none, false, none⟩]
    scenes := [feed] }

def homeGraph : Graph :=
  ⟨homeFlow.tasks, [], [("trending", []), ("items", []), ("home", ["items"]), ("feed", ["items"])]⟩

def homeRegistry : Registry :=
  ⟨homeGraph, [("trending", .inline ⟨"trending", [⟨"id", .str⟩], some [[("id", .string "t1")]], none⟩
      [[("id", .string "t1")]]),
    ("items", .configured (.source ⟨"items", [⟨"id", .str⟩], none, none⟩)),
    ("home", .configured (.service ⟨"home", ["items"], [], none, none, false, none⟩)),
    ("feed", .configured (.scene feed))]⟩

def homeHost : Host := { sharedHost with registry := homeRegistry }

def homeParams : Row := [("preTasks", .array [.string "trending", .string "items"])]

theorem home_flow_accepted : Graph.ofFlow homeFlow = .ok homeGraph :=
  Graph.ofFlow_ok_iff.mpr ⟨rfl, rfl, rfl, rfl, .cons (by cbv) (.cons (by cbv) (.cons (by cbv) (.cons (by cbv) .nil)))⟩

theorem home_registry_built : Registry.build homeGraph ⟨["items"], [], []⟩ = .ok homeRegistry := rfl

theorem shared_features_refine :
    let item (id : String) : Row := [("id", .string id)]
    let shared := [item "i1", item "i2", item "i1", item "i2", item "u1"]
    let first := [item "t1", item "i1", item "i2"]
    let target := [item "t1", item "i1", item "i2", item "i1", item "i2"]
    let stamped : List Row := [[("title", .null), ("id", .string "7")]]
    (Operation.invoke "candidates" sharedParams).evaluate sharedRegistry sharedAnswers = .ok shared ∧
      (sharedHost.answer (.invoke "candidates" sharedParams) .start).1 = ⟨0, "success", shared, none⟩ ∧
      (Operation.recommend "home" homeParams).evaluate homeRegistry sharedAnswers = .ok (first ++ target) ∧
      (homeHost.answer (.recommend "home" homeParams) .start).1 = ⟨0, "success", first ++ target, none⟩ ∧
      (Operation.recommendFor "feed" "7" []).evaluate homeRegistry sharedAnswers = .ok stamped ∧
      (homeHost.answer (.recommendFor "feed" "7" []) .start).1 = ⟨0, "success", stamped, some "7"⟩ := by
  intro item shared first target stamped
  have invoked : (Operation.invoke "candidates" sharedParams).evaluate sharedRegistry sharedAnswers = .ok shared := rfl
  have recommended : (Operation.recommend "home" homeParams).evaluate homeRegistry sharedAnswers =
      .ok (first ++ target) := rfl
  have presented : (Operation.recommendFor "feed" "7" []).evaluate homeRegistry sharedAnswers = .ok stamped := rfl
  have refines (operation : Operation) :=
    homeHost.operate_refines home_flow_accepted home_registry_built (fun query earlier => rfl) operation .start
  obtain ⟨agrees, -⟩ := sharedHost.operate_refines shared_flow_accepted shared_registry_built
    (fun query earlier => rfl) (.invoke "candidates" sharedParams) .start
  obtain ⟨agrees', -⟩ := refines (.recommend "home" homeParams)
  obtain ⟨agrees'', -⟩ := refines (.recommendFor "feed" "7" [])
  obtain ⟨rows, meant, answered⟩ := agrees.exact (by decide +kernel)
  obtain ⟨rows', meant', answered'⟩ := agrees'.exact (by decide +kernel)
  obtain ⟨rows'', meant'', answered''⟩ := agrees''.exact (by decide +kernel)
  cases invoked.symm.trans meant
  cases recommended.symm.trans meant'
  cases presented.symm.trans meant''
  exact ⟨invoked, answered, recommended, answered', presented, answered''⟩

end Curator
