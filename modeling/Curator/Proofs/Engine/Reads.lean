import Curator.Proofs.Engine.Lockstep
/-!
What plans read of a request: its subject, the key that it is split by, and the parameters that filter
sources. Requests that agree on these make the same plans, so whatever is carried out for one of them
is carried out, step by step, for the other.
-/

set_option autoImplicit false

namespace Curator

variable {request other : Request}

def Source.Reads (source : Source) (parameter : String) : Prop :=
  ∃ filter, source.filter = some filter ∧ filter.parameter = parameter

theorem Source.plan_congr {source : Source}
    (texts : ∀ parameter, source.Reads parameter → other.text? parameter = request.text? parameter)
    (inline : Option (List Row)) : source.plan inline other = source.plan inline request := by
  have query : source.query? other = source.query? request := by
    rw [Source.query?, Source.query?]
    cases filter : source.filter with
    | none => rfl
    | some own =>
        have text := texts own.parameter ⟨own, filter, rfl⟩
        simp only [text]
  rw [Source.plan, Source.plan, query]

theorem Experiment.rankPlan_congr (subject : other.subject = request.subject) (ranking : Ranking)
    (name : String) (candidates : Table) :
    rankPlan ranking name other candidates = rankPlan ranking name request candidates := by
  obtain ⟨params, own⟩ := request
  obtain ⟨params', own'⟩ := other
  cases subject
  simp only [rankPlan]
  split
  · rfl
  · refine congrArg (Plan.ask _) (funext fun answer => ?_)
    cases answer <;> rfl

theorem Experiment.plan_congr (experiment : Experiment) (subject : other.subject = request.subject)
    (input : List Table) : experiment.plan other input = experiment.plan request input := by
  simp only [Experiment.plan, Experiment.rankPlan_congr subject]

theorem Layer.plan_congr (layer : Layer) (key : other.splitKey = request.splitKey) (input : List Table) :
    layer.plan other input = layer.plan request input := by
  rw [Layer.plan, Layer.plan, key]

def Worker.source? : Worker → Option Source
  | .inline definition _ | .configured (.source definition) => some definition
  | .configured _ | .replaced _ => none

theorem Worker.kind_of_source (worker : Worker) {source : Source} (draws : worker.source? = some source) :
    worker.kind = .dataService := by
  cases worker with
  | inline definition rows => rfl
  | configured task =>
      cases task with
      | source definition => rfl
      | feature | transform | service | experiment | layer | scene => cases draws
  | replaced replacement => cases draws

theorem Worker.Serves.source {worker : Worker} {task : Task} (serves : worker.Serves task) {source : Source}
    (draws : worker.source? = some source) : task = .source source := by
  cases serves with
  | inline definition rows =>
      cases draws
      rfl
  | configured =>
      cases task with
      | source definition =>
          cases draws
          rfl
      | feature | transform | service | experiment | layer | scene => cases draws
  | replaced => cases draws

section

variable (subject : other.subject = request.subject) (key : other.splitKey = request.splitKey) {worker : Worker}
  (texts : ∀ source ∈ worker.source?, ∀ parameter, source.Reads parameter →
    other.text? parameter = request.text? parameter)
include subject key texts

theorem Worker.execute_congr (input : List Table) :
    worker.execute other input = worker.execute request input := by
  cases worker with
  | inline definition rows => exact Source.plan_congr (texts definition rfl) (some rows)
  | configured task =>
      cases task with
      | source definition => exact Source.plan_congr (texts definition rfl) none
      | feature | transform | service | scene => rfl
      | experiment definition => exact definition.plan_congr subject input
      | layer definition => exact definition.plan_congr key input
  | replaced replacement => rfl

theorem Errand.plan_congr (errand : Errand) : errand.plan other worker = errand.plan request worker := by
  have process : worker.process other = worker.process request := by
    rw [Worker.process, Worker.process, Worker.execute_congr subject key texts []]
  cases errand with
  | run name input => exact Worker.execute_congr subject key texts input
  | process name => exact process
  | fetch name => exact process

end

theorem Promise.Kept.lockstep {promise : Promise} {host : Host} (kept : promise.Kept host request)
    (subject : other.subject = request.subject) (key : other.splitKey = request.splitKey)
    (texts : ∀ errand worker, promise.sends errand → host.registry.worker? errand.task = some worker →
      ∀ source ∈ worker.source?, ∀ parameter, source.Reads parameter →
        other.text? parameter = request.text? parameter) :
    Lockstep promise (fun _ => True) Eq host host request other where
  timeout := rfl
  schedule := rfl
  size := rfl
  breadth := rfl
  clock same := congrArg Machine.clock same.symm
  turns same := congrArg Machine.turns same.symm
  advances time same := congrArg (Machine.advanceTo · time) same
  passes schedule same := congrArg (fun machine => (Machine.turn machine schedule).2) same
  marks name slot _ same := congrArg (Machine.mark · name slot) same
  asks query _ same := by
    cases same
    exact ⟨rfl, rfl⟩
  starts errand sends same := by
    cases same
    refine .inl ⟨fun _ => trivial, fun _ => rfl, ?_, fun worker found => kept.carried errand worker sends found⟩
    cases found : host.registry.worker? errand.task with
    | none => rfl
    | some worker => exact congrArg some (errand.plan_congr subject key (texts errand worker sends found))

end Curator
