import Curator.Engine.Meaning
import Curator.Reference
import Curator.Proofs.Engine.Work
/-!
The meaning of errands: what the reference evaluates them to. In a sound graph no more levels of nesting are needed
than there are tasks, so that the meaning of an errand is the meaning of its task's plan, whose own errands mean what
they mean anywhere else.
-/

set_option autoImplicit false

namespace Curator

namespace Plan

variable {promise : Promise} {answers : Answers}

theorem inTurn_congr {first second : Errand → Outcome} {errands : List Errand}
    (same : ∀ errand ∈ errands, first errand = second errand) :
    inTurn first errands = inTurn second errands := by
  induction errands with
  | nil => rfl
  | cons head tail ih =>
      rw [inTurn, inTurn, same head List.mem_cons_self,
        ih fun errand member => same errand (List.mem_cons_of_mem _ member)]

theorem evaluate_congr {first second : Errand → Outcome} {plan : Plan} (keeps : plan.Keeps promise)
    (same : ∀ errand, promise.sends errand → first errand = second errand) :
    plan.evaluate answers first = plan.evaluate answers second := by
  induction plan with
  | done outcome => rfl
  | wait delay rest ih => exact ih keeps
  | ask query next ih => exact ih _ (keeps.2 _)
  | send errands next ih =>
      rw [evaluate, evaluate, inTurn_congr fun errand member => same errand (keeps.1 errand member)]
      split
      · rfl
      · exact ih _ (keeps.2 _)

theorem inTurn_error {perform : Errand → Outcome} {errands : List Errand} {failure : Failure}
    (failed : inTurn perform errands = .error failure) :
    ∃ errand ∈ errands, perform errand = .error failure := by
  induction errands with
  | nil => cases failed
  | cons head tail ih =>
      rw [inTurn] at failed
      cases first : perform head with
      | error cause =>
          rw [first] at failed
          exact ⟨head, List.mem_cons_self, first.trans failed⟩
      | ok tables =>
          cases others : inTurn perform tail with
          | error cause =>
              simp only [first, others, Except.map, Except.error.injEq] at failed
              obtain ⟨errand, member, same⟩ := ih (others.trans (congrArg _ failed))
              exact ⟨errand, List.mem_cons_of_mem _ member, same⟩
          | ok more => simp [first, others, Except.map] at failed

theorem evaluate_error {perform : Errand → Outcome} {plan : Plan} {failure : Failure}
    (keeps : plan.Keeps promise) (failed : plan.evaluate answers perform = .error failure) :
    promise.ends (.error failure) ∨ ∃ errand, promise.sends errand ∧ perform errand = .error failure := by
  induction plan with
  | done outcome => exact .inl (failed ▸ keeps)
  | wait delay rest ih => exact ih keeps failed
  | ask query next ih => exact ih _ (keeps.2 _) failed
  | send errands next ih =>
      rw [evaluate] at failed
      cases sent : inTurn perform errands with
      | error cause =>
          rw [sent] at failed
          obtain ⟨errand, member, same⟩ := inTurn_error (sent.trans failed)
          exact .inr ⟨errand, keeps.1 errand member, same⟩
      | ok tables =>
          rw [sent] at failed
          exact ih tables (keeps.2 tables) failed

end Plan

namespace Errand

def supplied? (seeds : List Table) : Errand → Option Table
  | .fetch task => Memo.cached? (Memo.seedAll [] seeds) task
  | _ => none

/-- What errands mean: what the caller supplied, or what the plan of the task means, whose errands
mean the same here as anywhere. -/
structure Means (registry : Registry) (answers : Answers) (request : Request) (seeds : List Table)
    (meaning : Errand → Outcome) : Prop where
  supplied : ∀ errand table, errand.supplied? seeds = some table → meaning errand = .ok [table]
  missing : ∀ errand, errand.supplied? seeds = none → registry.worker? errand.task = none →
    meaning errand = .error (.taskNotFound errand.task)
  worked : ∀ errand worker, errand.supplied? seeds = none → registry.worker? errand.task = some worker →
    meaning errand = (errand.plan request worker).evaluate answers meaning

end Errand

namespace Plan

variable {answers : Answers} {perform : Errand → Outcome}

theorem evaluate_send (errands : List Errand) (next : List Table → Plan) :
    (send errands next).evaluate answers perform =
      inTurn perform errands >>= fun tables => (next tables).evaluate answers perform := by
  rw [evaluate]
  cases inTurn perform errands <;> rfl

theorem evaluate_andThen (plan : Plan) (next : List Table → Plan) :
    (plan.andThen next).evaluate answers perform =
      plan.evaluate answers perform >>= fun tables => (next tables).evaluate answers perform := by
  induction plan with
  | done outcome => cases outcome <;> rfl
  | wait delay rest ih => exact ih
  | ask query answered ih => exact ih (answers query)
  | send errands finished ih =>
      rw [andThen, evaluate, evaluate]
      cases inTurn perform errands with
      | error failure => rfl
      | ok tables => exact ih tables

theorem evaluate_ofTable (made : Except Failure Table) :
    (ofTable made).evaluate answers perform = do return [← made] := by
  cases made <;> rfl

end Plan

namespace Reference

variable {reference : Reference} {run : Run} {request : Request}

def perform (reference : Reference) (run : Run) : Errand → Outcome
  | .run task input => run task input
  | .process task => (alone run task).map ([·])
  | .fetch task => (reference.value run task).map ([·])

theorem inTurn_run (tasks : List String) (input : List Table) :
    Plan.inTurn (reference.perform run) (tasks.map fun task => .run task input) = stage run input tasks := by
  induction tasks with
  | nil => rfl
  | cons task rest ih =>
      rw [List.map_cons, Plan.inTurn, ih, stage, perform]
      cases run task input with
      | error failure => rfl
      | ok first => cases stage run input rest <;> rfl

theorem inTurn_fetch (tasks : List String) :
    Plan.inTurn (reference.perform run) (tasks.map .fetch) = reference.values run tasks := by
  induction tasks with
  | nil => rfl
  | cons task rest ih =>
      rw [List.map_cons, Plan.inTurn, ih, values, perform]
      cases reference.value run task with
      | error failure => rfl
      | ok first => cases reference.values run rest <;> rfl

theorem evaluate_stage (tasks : List String) (input : List Table) (next : List Table → Plan) :
    (Plan.stage tasks input next).evaluate reference.answers (reference.perform run) =
      stage run input tasks >>= fun outputs => (next outputs).evaluate reference.answers (reference.perform run) := by
  rw [Plan.stage, Plan.evaluate_send, inTurn_run]

theorem evaluate_pull (tasks : List String) (next : List Table → Plan) :
    (Plan.pull tasks next).evaluate reference.answers (reference.perform run) =
      reference.values run tasks >>= fun tables =>
        (next tables).evaluate reference.answers (reference.perform run) := by
  rw [Plan.pull, Plan.evaluate_send, inTurn_fetch]

theorem stage_single (task : String) (input : List Table) : stage run input [task] = run task input := by
  rw [stage, stage]
  cases run task input with
  | error failure => rfl
  | ok first => exact congrArg Except.ok (List.append_nil first)

theorem evaluate_chain (tasks : List String) (input : List Table) (next : List Table → Plan) :
    (Plan.chain tasks input next).evaluate reference.answers (reference.perform run) =
      chain run tasks input >>= fun outputs => (next outputs).evaluate reference.answers (reference.perform run) := by
  induction tasks generalizing input with
  | nil => rfl
  | cons task rest ih =>
      rw [Plan.chain, evaluate_stage, stage_single, chain]
      cases run task input with
      | error failure => rfl
      | ok output => exact ih output

theorem evaluate_typed (definition : Source) (rows : List Row) :
    definition.typed rows = (do
      let table ← (Table.ofRows definition.name definition.columns rows).mapError (.schema definition.name)
      return [table]) := by
  rw [Source.typed]
  cases Table.ofRows definition.name definition.columns rows <;> rfl

theorem evaluate_read {definition : Source} (inline : Option (List Row)) {filter : Option (String × String)}
    (asked : definition.query? reference.request = some filter) :
    (definition.plan inline reference.request).evaluate reference.answers (reference.perform run) =
      reference.read definition inline filter := by
  rw [Source.plan, asked]
  cases inline with
  | some rows => exact evaluate_typed definition (Source.select filter rows)
  | none =>
      dsimp only
      rw [Plan.evaluate, read]
      cases reference.answers (.rows definition.name (definition.columns.map Column.name) filter) with
      | ok rows => exact evaluate_typed definition rows
      | error causes => rfl

theorem evaluate_source (definition : Source) (inline : Option (List Row)) :
    (definition.plan inline reference.request).evaluate reference.answers (reference.perform run) =
      reference.source definition inline := by
  rw [source]
  cases filtered : definition.filter with
  | none => exact evaluate_read inline (by rw [Source.query?, filtered])
  | some filter =>
      cases found : reference.request.text? filter.parameter with
      | none =>
          have unasked : definition.query? reference.request = none := by
            simp only [Source.query?, filtered, found, Option.map_none]
          rw [Source.plan, unasked]
          dsimp only
          rw [found]
          rfl
      | some value =>
          have asked : definition.query? reference.request = some (some (filter.column, value)) := by
            simp only [Source.query?, filtered, found, Option.map_some]
          rw [evaluate_read inline asked]
          dsimp only
          rw [found]

theorem evaluate_rankPlan (ranking : Ranking) (name : String) {outputs : List Table} {candidates : Table}
    (stacked : Table.stack name outputs = .ok candidates) :
    (Experiment.rankPlan ranking name reference.request candidates).evaluate reference.answers
      (reference.perform run) = reference.score name ranking outputs := by
  rw [score, stacked, Experiment.rankPlan]
  change _ = ite _ _ _
  by_cases empty : candidates.isEmpty = true
  · rw [if_pos empty, if_pos empty]
    rfl
  · rw [if_neg empty, if_neg empty, Plan.evaluate]
    cases reference.answers (.scores ranking.model reference.request.subject ranking.features candidates.rows) with
    | error causes => rfl
    | ok scores => exact Plan.evaluate_ofTable (ranking.rank name candidates scores)

theorem evaluate_task (definition : Task) (input : List Table) :
    (definition.plan reference.request input).evaluate reference.answers (reference.perform run) =
      reference.task run input definition := by
  cases definition with
  | source definition => exact evaluate_source definition none
  | feature definition | transform definition | service definition =>
      rw [Task.plan, evaluate_pull, task]
      simp only [Plan.evaluate_ofTable]
  | experiment definition =>
      rw [Task.plan, Experiment.plan, evaluate_chain, task]
      cases chain run definition.chain input with
      | error failure => rfl
      | ok outputs =>
          dsimp only [bind, Except.bind]
          cases definition.ranking with
          | none => rfl
          | some ranking =>
              dsimp only
              cases stacked : Table.stack definition.name outputs with
              | error error =>
                  rw [score, stacked]
                  rfl
              | ok candidates => exact evaluate_rankPlan ranking definition.name stacked
  | layer definition =>
      rw [Task.plan, Layer.plan, task]
      cases definition.assign reference.request.splitKey with
      | error error => rfl
      | ok experiment =>
          change Plan.evaluate _ _ (.stage [experiment] input .succeed) = run experiment input
          rw [evaluate_stage, stage_single]
          cases run experiment input <;> rfl
  | scene definition =>
      rw [Task.plan, evaluate_chain, task]
      simp only [Plan.evaluate_ofTable]

theorem evaluate_execute (worker : Worker) (input : List Table) :
    (worker.execute reference.request input).evaluate reference.answers (reference.perform run) =
      reference.work run input worker := by
  cases worker with
  | inline definition rows => exact evaluate_source definition (some rows)
  | configured definition => exact evaluate_task definition input
  | replaced replacement => rfl

theorem alone_eq_single (run : Run) (task : String) :
    alone run task = run task [] >>= Outcome.single task := by
  rw [alone]
  cases run task [] with
  | error failure => rfl
  | ok tables => rcases tables with _ | ⟨first, _ | ⟨second, rest⟩⟩ <;> rfl

theorem within_missing (depth : Nat) {task : String} (missing : reference.registry.worker? task = none)
    (input : List Table) : reference.within (depth + 1) task input = .error (.taskNotFound task) := by
  rw [within, missing]
  rfl

theorem within_found (depth : Nat) {task : String} {worker : Worker}
    (found : reference.registry.worker? task = some worker) (input : List Table) :
    reference.within (depth + 1) task input = reference.work (reference.within depth) input worker := by
  rw [within, found]

theorem evaluate_process (worker : Worker) :
    (worker.process reference.request).evaluate reference.answers (reference.perform run) =
      (alone (fun _ input => reference.work run input worker) worker.name).map ([·]) := by
  rw [Worker.process, Plan.evaluate_andThen, evaluate_execute, alone_eq_single]
  cases reference.work run [] worker with
  | error failure => rfl
  | ok tables => exact Plan.evaluate_ofTable (Outcome.single worker.name tables)

end Reference

theorem Registry.Staffed.name_of_worker {registry : Registry} (staffed : registry.Staffed) {name : String}
    {worker : Worker} (found : registry.worker? name = some worker) : worker.name = name := by
  obtain ⟨task, here, serves⟩ := staffed.serves name worker found
  have named : task.name = name := Task.name_of_find? here
  cases serves with
  | inline => exact named
  | configured => exact named
  | replaced replacement _ same => exact same.trans named

namespace Reference

variable {reference : Reference} {seeds : List Table} {errand : Errand}
  (supplies : ∀ name, reference.supplied name = Memo.cached? (Memo.seedAll [] seeds) name)
include supplies

theorem perform_supplied {run : Run} {table : Table} (given : errand.supplied? seeds = some table) :
    reference.perform run errand = .ok [table] := by
  cases errand with
  | run task input => cases given
  | process task => cases given
  | fetch task =>
      have supplied : reference.supplied task = some table := (supplies task).trans given
      simp only [perform, value, supplied]
      rfl

theorem perform_fetch {run : Run} {task : String} (given : Errand.supplied? seeds (.fetch task) = none) :
    reference.perform run (.fetch task) = reference.perform run (.process task) := by
  have supplied : reference.supplied task = none := (supplies task).trans given
  simp only [perform, value, supplied]

theorem perform_missing (depth : Nat) (given : errand.supplied? seeds = none)
    (missing : reference.registry.worker? errand.task = none) :
    reference.perform (reference.within (depth + 1)) errand = .error (.taskNotFound errand.task) := by
  have process : reference.perform (reference.within (depth + 1)) (.process errand.task) =
      .error (.taskNotFound errand.task) := by
    rw [perform, alone_eq_single, within_missing depth missing]
    rfl
  cases errand with
  | run task input => exact within_missing depth missing input
  | process task => exact process
  | fetch task => exact (perform_fetch supplies given).trans process

variable (staffed : reference.registry.Staffed)
include staffed

theorem perform_worked (depth : Nat) {worker : Worker} (given : errand.supplied? seeds = none)
    (found : reference.registry.worker? errand.task = some worker) :
    reference.perform (reference.within (depth + 1)) errand =
      (errand.plan reference.request worker).evaluate reference.answers
        (reference.perform (reference.within depth)) := by
  have process : reference.perform (reference.within (depth + 1)) (.process errand.task) =
      (worker.process reference.request).evaluate reference.answers (reference.perform (reference.within depth)) := by
    rw [evaluate_process, staffed.name_of_worker found, perform, alone_eq_single, alone_eq_single,
      within_found depth found]
  cases errand with
  | run task input => exact (within_found depth found input).trans (evaluate_execute worker input).symm
  | process task => exact process
  | fetch task => exact (perform_fetch supplies given).trans process

theorem perform_stable (depth : Nat) (enough : rank reference.registry.graph.tasks errand.task < depth) :
    reference.perform (reference.within depth) errand = reference.perform (reference.within (depth + 1)) errand := by
  induction depth generalizing errand with
  | zero => cases enough
  | succ depth ih =>
      cases given : errand.supplied? seeds with
      | some table => rw [perform_supplied supplies given, perform_supplied supplies given]
      | none =>
          cases found : reference.registry.worker? errand.task with
          | none => rw [perform_missing supplies depth given found, perform_missing supplies (depth + 1) given found]
          | some worker =>
              rw [perform_worked supplies staffed depth given found,
                perform_worked supplies staffed (depth + 1) given found]
              -- The plan's own errands rank lower, and one level less is enough for them.
              apply Plan.evaluate_congr (staffed.plan_descends reference.request found)
              intro sent under
              exact ih (Nat.lt_of_lt_of_le under (Nat.le_of_lt_succ enough))

theorem means_perform :
    Errand.Means reference.registry reference.answers reference.request seeds (reference.perform reference.run) where
  supplied _ _ given := perform_supplied supplies given
  missing _ given missing := perform_missing supplies _ given missing
  worked errand worker given found := by
    have enough : rank reference.registry.graph.tasks errand.task < reference.registry.graph.size + 1 :=
      Nat.lt_succ_of_le (Graph.rank_le_size staffed.sound errand.task)
    rw [run, perform_stable supplies staffed _ enough]
    exact perform_worked supplies staffed _ given found

theorem perform_finished (depth : Nat) (enough : rank reference.registry.graph.tasks errand.task < depth) :
    reference.perform (reference.within depth) errand ≠ .error .unfinished := by
  induction depth generalizing errand with
  | zero => cases enough
  | succ depth ih =>
      cases given : errand.supplied? seeds with
      | some table => simp [perform_supplied supplies given]
      | none =>
          cases found : reference.registry.worker? errand.task with
          | none => simp [perform_missing supplies depth given found]
          | some worker =>
              rw [perform_worked supplies staffed depth given found]
              intro unfinished
              rcases Plan.evaluate_error (staffed.plan_descends reference.request found) unfinished with
                own | ⟨sent, under, failed⟩
              · exact own _ rfl
              · exact ih (Nat.lt_of_lt_of_le under (Nat.le_of_lt_succ enough)) failed

end Reference

end Curator
