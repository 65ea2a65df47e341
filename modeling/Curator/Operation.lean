import Curator.Engine.Drive
import Curator.Envelope
import Curator.Text.Blank
/-!
The three operations that callers have: run one task on data they supply, run a pipeline of tasks
that ends with one, and recommend for a subject in a scene. What can be refused up front is refused
before anything runs; the rest of an operation is a job, and its outcome goes into an envelope.
-/

set_option autoImplicit false

namespace Curator

inductive Operation where
  | invoke (task : String) (params : Row)
  | recommend (task : String) (params : Row)
  | recommendFor (scene subject : String) (params : Row)
deriving Repr, Inhabited

structure Job where
  request : Request
  seeds : List Table
  errands : Nat
  plan : Plan
deriving Inhabited

namespace Registry

def supplied (registry : Registry) (task : String) (request : Request) (source : String) :
    Except Failure (Option Table) :=
  match request.param? source with
  | some (.array records) =>
      let columns := ((registry.graph.lookup source).map Task.columns).getD []
      match Table.ofRecords source columns records with
      | .ok table => .ok (some table)
      | .error error => .error (.missingData task source (.illTyped error))
  | some _ => .error (.missingData task source .notRecords)
  | none =>
      if registry.has source then .ok none else .error (.missingData task source .noSource)

def suppliedAll (registry : Registry) (task : String) (request : Request) :
    List String → Except Failure (List Table)
  | [] => .ok []
  | source :: rest => do
      let first ← registry.supplied task request source
      let others ← registry.suppliedAll task request rest
      return match first with
        | some table => table :: others
        | none => others

end Registry

namespace Job

def invoke (registry : Registry) (task : String) (params : Row) : Except Failure Job := do
  if !registry.has task then throw (.taskNotFound task)
  let request := Request.ofParams params
  let seeds ← registry.suppliedAll task request ((registry.graph.reliesOn? task).getD [])
  return {
    request, seeds
    errands := 1
    plan := .stage [task] [] fun outputs =>
      if outputs.isEmpty then .fail (.executionFailed task .noOutput) else .succeed outputs }

def precedingParam : String := "preTasks"

def preceding (task : String) (params : Row) : Except Failure (List String) :=
  let malformed := Failure.missingData task precedingParam .notTaskNames
  match Row.value? params precedingParam with
  | none | some .null => .ok []
  | some (.array names) => match names.mapM Json.string? with
      | some names => .ok names
      | none => .error malformed
  | some _ => .error malformed

def unknown? (registry : Registry) (names : List String) : Option String :=
  names.find? fun name => !registry.has name

def recommend (registry : Registry) (task : String) (params : Row) : Except Failure Job := do
  let first ← preceding task params
  match unknown? registry (first ++ [task]) with
  | some name => throw (.taskNotFound name)
  | none => return {
      request := .ofParams params
      seeds := []
      errands := first.length + 1
      plan := .stage first [] fun produced => .stage [task] produced fun target =>
        if produced.isEmpty && target.isEmpty then .fail (.executionFailed task .noPipelineOutput)
        else .succeed (produced ++ target) }

def recommendFor (registry : Registry) (scene subject : String) (params : Row) :
    Except Failure Job := do
  if (registry.workerOf? .scene scene).isNone then throw (.sceneNotFound scene)
  if Text.allBlank subject then throw (.missingSubject scene)
  return {
    request := (Request.ofParams params).withSubject subject
    seeds := []
    errands := 1
    plan := .send [.process scene] .succeed }

end Job

def Row.identify (subject : String) (row : Row) : Row :=
  match Row.value? row "id" with
  | none | some .null => Row.insert "id" (.string subject) row
  | some _ => row

namespace Operation

def job (registry : Registry) : Operation → Except Failure Job
  | invoke task params => Job.invoke registry task params
  | recommend task params => Job.recommend registry task params
  | recommendFor scene subject params => Job.recommendFor registry scene subject params

def reply (operation : Operation) : Outcome → Envelope
  | .error failure => .failure failure.message
  | .ok tables =>
      let rows := tables.flatMap Table.rows
      match operation with
      | invoke _ _ | recommend _ _ => .success rows
      | recommendFor _ subject _ => .successFor subject (rows.map (Row.identify subject))

end Operation

namespace Host

def runJob (host : Host) (job : Job) (machine : Machine) : Outcome × Machine :=
  host.perform job.request job.errands job.plan (machine.withMemo (Memo.seedAll [] job.seeds))

def operate (host : Host) (operation : Operation) (machine : Machine) : Outcome × Machine :=
  match operation.job host.registry with
  | .error failure => (.error failure, machine)
  | .ok job => host.runJob job machine

def answer (host : Host) (operation : Operation) (machine : Machine) : Envelope × Machine :=
  let (outcome, machine) := host.operate operation machine
  (operation.reply outcome, machine)

end Host

end Curator
