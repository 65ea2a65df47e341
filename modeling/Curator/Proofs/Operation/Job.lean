import Curator.Proofs.Engine.Progress
import Curator.Proofs.Engine.Refinement
import Curator.Proofs.Operation.Seeding
/-!
What operations come to before anything runs: a refusal that is known up front, or a job, whose plan
sends only for tasks that are registered and stays within the work it is given.
-/

set_option autoImplicit false

namespace Curator

def Failure.IsUpFront : Failure → Prop
  | .taskNotFound _ | .sceneNotFound _ | .missingData _ _ _ | .missingSubject _ => True
  | _ => False

namespace Job

theorem invoke_error {registry : Registry} {task : String} {params : Row} {failure : Failure}
    (refused : invoke registry task params = .error failure) :
    (failure = .taskNotFound task ∧ registry.has task = false) ∨
      ∃ source fault, failure = .missingData task source fault := by
  rw [invoke] at refused
  split at refused
  · rename_i unknown
    cases refused
    exact .inl ⟨rfl, by simpa using unknown⟩
  · rcases bind_error_iff.mp refused with seeding | ⟨seeds, -, impossible⟩
    · exact .inr (Registry.suppliedAll_error seeding)
    · cases impossible

theorem invoke_ok {registry : Registry} {task : String} {params : Row} {job : Job}
    (made : invoke registry task params = .ok job) :
    registry.has task = true ∧ job.request = .ofParams params ∧
      registry.suppliedAll task job.request ((registry.graph.reliesOn? task).getD []) = .ok job.seeds ∧
      job.errands = 1 ∧
      job.plan = .stage [task] [] fun outputs =>
        if outputs.isEmpty then .fail (.executionFailed task .noOutput) else .succeed outputs := by
  rw [invoke] at made
  split at made
  · cases made
  · rename_i registered
    obtain ⟨seeds, supplied, same⟩ := bind_ok_iff.mp made
    cases pure_ok_iff.mp same
    exact ⟨by simpa using registered, rfl, supplied, rfl, rfl⟩

def invocation (task : String) (request : Request) (seeds : List Table) : Job where
  request := request
  seeds := seeds
  errands := 1
  plan := .stage [task] [] fun outputs =>
    if outputs.isEmpty then .fail (.executionFailed task .noOutput) else .succeed outputs

def pipeline (task : String) (request : Request) (first : List String) : Job where
  request := request
  seeds := []
  errands := first.length + 1
  plan := .stage first [] fun produced => .stage [task] produced fun target =>
    if produced.isEmpty && target.isEmpty then .fail (.executionFailed task .noPipelineOutput)
    else .succeed (produced ++ target)

theorem invoke_eq {registry : Registry} {task : String} (known : registry.has task = true) (params : Row) :
    invoke registry task params =
      (registry.suppliedAll task (.ofParams params) ((registry.graph.reliesOn? task).getD [])).map
        (invocation task (.ofParams params)) := by
  simp only [invoke, known]
  cases registry.suppliedAll task (.ofParams params) ((registry.graph.reliesOn? task).getD []) <;> rfl

theorem invoke_unknown {registry : Registry} {task : String} (unknown : registry.has task = false)
    (params : Row) : invoke registry task params = .error (.taskNotFound task) := by
  simp only [invoke, unknown]
  rfl

theorem invocation_keeps {promise : Promise} {task : String} (sends : promise.sends (.run task []))
    (ends : ∀ outcome, promise.ends outcome) (request : Request) (seeds : List Table) :
    (invocation task request seeds).plan.Keeps promise := by
  apply Plan.keeps_stage
  · intro name member
    cases List.mem_singleton.mp member
    exact sends
  · intro outputs
    split
    · exact ends _
    · exact ends _

theorem preceding_isUpFront {task : String} {params : Row} {failure : Failure}
    (refused : preceding task params = .error failure) : failure.IsUpFront := by
  unfold preceding at refused
  dsimp only at refused
  split at refused
  · cases refused
  · cases refused
  · split at refused
    · cases refused
    · cases refused
      trivial
  · cases refused
    trivial

theorem recommend_isUpFront {registry : Registry} {task : String} {params : Row} {failure : Failure}
    (refused : recommend registry task params = .error failure) : failure.IsUpFront := by
  rcases bind_error_iff.mp refused with listing | ⟨first, -, later⟩
  · exact preceding_isUpFront listing
  · split at later
    · cases later
      trivial
    · cases later

theorem recommend_ok {registry : Registry} {task : String} {params : Row} {job : Job}
    (made : recommend registry task params = .ok job) :
    ∃ first : List String, (∀ name ∈ first ++ [task], registry.has name = true) ∧
      job = pipeline task (.ofParams params) first := by
  obtain ⟨first, -, later⟩ := bind_ok_iff.mp made
  split at later
  · cases later
  · rename_i known
    cases pure_ok_iff.mp later
    refine ⟨first, fun name member => ?_, rfl⟩
    simpa using List.find?_eq_none.mp known name member

theorem recommendFor_isUpFront {registry : Registry} {scene subject : String} {params : Row}
    {failure : Failure} (refused : recommendFor registry scene subject params = .error failure) :
    failure.IsUpFront := by
  rw [recommendFor] at refused
  by_cases unknown : (registry.workerOf? .scene scene).isNone = true
  · simp only [if_pos unknown] at refused
    cases refused
    trivial
  · simp only [if_neg unknown] at refused
    by_cases blank : Text.allBlank subject = true
    · simp only [if_pos blank] at refused
      cases refused
      trivial
    · simp only [if_neg blank] at refused
      cases refused

theorem recommendFor_ok {registry : Registry} {scene subject : String} {params : Row} {job : Job}
    (made : recommendFor registry scene subject params = .ok job) :
    registry.has scene = true ∧ job.seeds = [] ∧ job.errands = 1 ∧
      job.plan = .send [.process scene] .succeed := by
  rw [recommendFor] at made
  by_cases unknown : (registry.workerOf? .scene scene).isNone = true
  · simp only [if_pos unknown] at made
    cases made
  · simp only [if_neg unknown] at made
    by_cases blank : Text.allBlank subject = true
    · simp only [if_pos blank] at made
      cases made
    · simp only [if_neg blank] at made
      cases made
      refine ⟨?_, rfl, rfl, rfl⟩
      cases found : registry.worker? scene with
      | none => simp [Registry.workerOf?, found] at unknown
      | some worker => simp [Registry.has, found]

end Job

namespace Operation

theorem job_isUpFront {registry : Registry} {operation : Operation} {failure : Failure}
    (refused : operation.job registry = .error failure) : failure.IsUpFront := by
  cases operation with
  | invoke task params =>
      rcases Job.invoke_error refused with ⟨rfl, -⟩ | ⟨source, fault, rfl⟩ <;> trivial
  | recommend task params => exact Job.recommend_isUpFront refused
  | recommendFor scene subject params => exact Job.recommendFor_isUpFront refused

variable {registry : Registry} {operation : Operation} {job : Job}
  (made : operation.job registry = .ok job)
include made

theorem job_keeps :
    job.plan.Keeps ⟨fun errand => registry.has errand.task = true ∧ errand.isFetch = false, fun _ => False,
      fun outcome => ∀ failure, outcome = .error failure → failure.IsOwn⟩ := by
  cases operation with
  | invoke task params =>
      obtain ⟨known, -, -, -, plan⟩ := Job.invoke_ok made
      rw [plan]
      refine Plan.keeps_stage (fun name member => ⟨List.mem_singleton.mp member ▸ known, rfl⟩) ?_
      intro outputs
      split
      · intro failure failed
        cases failed
        trivial
      · intro failure failed
        cases failed
  | recommend task params =>
      obtain ⟨first, known, rfl⟩ := Job.recommend_ok made
      refine Plan.keeps_stage (fun name member => ⟨known name (List.mem_append_left _ member), rfl⟩) ?_
      intro produced
      refine Plan.keeps_stage (fun name member => ⟨known name (List.mem_append_right _ member), rfl⟩) ?_
      intro target
      split
      · intro failure failed
        cases failed
        trivial
      · intro failure failed
        cases failed
  | recommendFor scene subject params =>
      obtain ⟨known, -, -, plan⟩ := Job.recommendFor_ok made
      rw [plan]
      refine ⟨fun errand member => ?_, fun _ _ failed => nomatch failed⟩
      cases List.mem_singleton.mp member
      exact ⟨known, rfl⟩

theorem job_spends {each : Nat} (enough : 5 ≤ each) :
    job.plan.Spends each ((job.errands + 1) * each) := by
  cases operation with
  | invoke task params =>
      obtain ⟨-, -, -, errands, plan⟩ := Job.invoke_ok made
      rw [plan, errands]
      have ends (outputs : List Table) : Plan.Spends each
          (if outputs.isEmpty then .fail (.executionFailed task .noOutput) else .succeed outputs) 1 := by
        split <;> exact Plan.spends_done _
      exact (Plan.spends_stage ends).mono (by simp; omega)
  | recommend task params =>
      obtain ⟨first, -, rfl⟩ := Job.recommend_ok made
      have ends (produced target : List Table) : Plan.Spends each
          (if produced.isEmpty && target.isEmpty then .fail (.executionFailed task .noPipelineOutput)
            else .succeed (produced ++ target)) 1 := by
        split <;> exact Plan.spends_done _
      refine (Plan.spends_stage fun produced => Plan.spends_stage (ends produced)).mono ?_
      simp only [Job.pipeline, List.length_cons, List.length_nil, Nat.add_mul]
      omega
  | recommendFor scene subject params =>
      obtain ⟨-, -, errands, plan⟩ := Job.recommendFor_ok made
      rw [plan, errands]
      exact ⟨1, by simp; omega, fun tables => Plan.spends_done (.ok tables)⟩

end Operation

section

variable (host : Host) (operation : Operation)

theorem Host.operate_refused {failure : Failure} (refused : operation.job host.registry = .error failure)
    (machine : Machine) : host.operate operation machine = (.error failure, machine) := by
  rw [Host.operate, refused]

theorem Host.operate_made {job : Job} (made : operation.job host.registry = .ok job) (machine : Machine) :
    host.operate operation machine = host.runJob job machine := by
  rw [Host.operate, made]

end

theorem Host.operate_invoke (host : Host) (task : String) (params : Row) (machine : Machine) :
    host.operate (.invoke task params) machine =
      if host.registry.has task = true then
        match host.registry.suppliedAll task (.ofParams params)
            ((host.registry.graph.reliesOn? task).getD []) with
        | .error failure => (.error failure, machine)
        | .ok seeds => host.runJob (Job.invocation task (.ofParams params) seeds) machine
      else (.error (.taskNotFound task), machine) := by
  by_cases known : host.registry.has task = true
  · have job := Job.invoke_eq known params
    rw [if_pos known]
    cases passed : host.registry.suppliedAll task (.ofParams params)
        ((host.registry.graph.reliesOn? task).getD []) with
    | error failure =>
        rw [passed] at job
        exact host.operate_refused (.invoke task params) job machine
    | ok seeds =>
        rw [passed] at job
        exact host.operate_made (.invoke task params) job machine
  · have unknown : host.registry.has task = false := by simpa using known
    rw [if_neg known]
    exact host.operate_refused (.invoke task params) (Job.invoke_unknown unknown params) machine

theorem Host.runJob_settles {host : Host} (staffed : host.registry.Staffed) {operation : Operation} {job : Job}
    (made : operation.job host.registry = .ok job) (machine : Machine) :
    ∃ steps, Activity.Run host job.request steps (.sleeping none machine.clock job.plan)
      (machine.withMemo (Memo.seedAll [] job.seeds)) (.settled (host.runJob job machine).1)
      (host.runJob job machine).2 := by
  have enough : 5 ≤ host.allowance (host.registry.graph.size + 1) :=
    Nat.le_trans (Nat.le_add_left 5 _) (Nat.le_self_pow (by omega) _)
  have spends : job.plan.Spends (host.allowance (host.registry.graph.size + 1)) (host.work job.errands) :=
    Operation.job_spends made enough
  have idle (name : String) : (machine.withMemo (Memo.seedAll [] job.seeds)).memo.slot? name ≠ some .busy := by
    intro busy
    obtain ⟨table, filled⟩ := Memo.filled_of_seedAll busy
    cases filled
  exact Host.perform_settles staffed spends idle

end Curator
