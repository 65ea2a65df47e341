import Curator.Proofs.Engine.Reads
import Curator.Proofs.Operation.Reliance
/-!
What parameters have an influence on an answer: for a scene those that filter the sources it relies
on, with its own subject in place of any that is sent; for a single task besides that the subject, the
key for splitting, and the tables supplied for its sources.
-/

set_option autoImplicit false

namespace Curator

def Graph.Filters (graph : Graph) (source parameter : String) : Prop :=
  ∃ definition, graph.lookup source = some (.source definition) ∧ definition.Reads parameter

theorem Request.text?_congr {request other : Request} (subject : other.subject = request.subject)
    {parameter : String} (same : parameter ≠ "id" → other.param? parameter = request.param? parameter) :
    other.text? parameter = request.text? parameter := by
  rw [Request.text?, Request.text?]
  by_cases own : parameter = "id"
  · rw [if_pos own, if_pos own, subject]
  · rw [if_neg own, if_neg own, same own]

theorem Request.splitKey_congr {request other : Request} (subject : other.subject = request.subject)
    (key : request.subject = none → other.param? "bucketKey" = request.param? "bucketKey") :
    other.splitKey = request.splitKey := by
  rw [Request.splitKey, Request.splitKey, subject]
  cases own : request.subject with
  | some text => rfl
  | none => rw [Request.text?_congr subject fun _ => key own]

theorem Registry.suppliedAll_congr {registry : Registry} {task : String} {request other : Request}
    {sources : List String} (same : ∀ source ∈ sources, other.param? source = request.param? source) :
    registry.suppliedAll task other sources = registry.suppliedAll task request sources := by
  induction sources with
  | nil => rfl
  | cons source rest ih =>
      have here : registry.supplied task other source = registry.supplied task request source := by
        rw [Registry.supplied, Registry.supplied, same source List.mem_cons_self]
      rw [Registry.suppliedAll, Registry.suppliedAll, here,
        ih fun other member => same other (List.mem_cons_of_mem _ member)]

namespace Host

variable {host : Host} (staffed : host.registry.Staffed) {request other : Request}
  (subject : other.subject = request.subject) (key : other.splitKey = request.splitKey)
include staffed subject key

theorem perform_reads (errand : Errand)
    (texts : ∀ name worker definition parameter, host.registry.graph.ReliesOn errand.task name →
      host.registry.worker? name = some worker → worker.source? = some definition →
      definition.Reads parameter → other.text? parameter = request.text? parameter)
    (errands : Nat) {plan : Plan} (keeps : plan.Keeps (errand.reach host.registry.graph)) (machine : Machine) :
    host.perform other errands plan machine = host.perform request errands plan machine := by
  have read (sent : Errand) (worker : Worker) (sends : (errand.reach host.registry.graph).sends sent)
      (found : host.registry.worker? sent.task = some worker) (definition : Source)
      (draws : definition ∈ worker.source?) (parameter : String) (reads : definition.Reads parameter) :
      other.text? parameter = request.text? parameter := by
    obtain ⟨task, here, serves⟩ := staffed.serves sent.task worker found
    cases serves.source draws
    have relied : host.registry.graph.ReliesOn errand.task sent.task := by
      rcases sends with rfl | ⟨reached, -⟩
      · exact .inl rfl
      · exact Graph.reliesOn_of_reaches staffed.sound reached ⟨_, here, rfl⟩
    exact texts sent.task worker definition parameter relied found draws reads
  have lockstep := (errand.reach_kept staffed request).lockstep subject key read
  obtain ⟨outcome, machine⟩ := lockstep.perform errands keeps rfl
  exact Prod.ext outcome machine.symm

end Host

theorem Job.recommendFor_uniform (registry : Registry) (scene subject : String) :
    (∃ failure, ∀ params, Job.recommendFor registry scene subject params = .error failure) ∨
      (registry.workerOf? .scene scene).isSome = true ∧ ∀ params,
        Job.recommendFor registry scene subject params =
          .ok ⟨(Request.ofParams params).withSubject subject, [], 1, .send [.process scene] .succeed⟩ := by
  by_cases unknown : (registry.workerOf? .scene scene).isNone = true
  · exact .inl ⟨.sceneNotFound scene, fun params => by rw [Job.recommendFor, if_pos unknown]; rfl⟩
  · by_cases blank : Text.allBlank subject = true
    · refine .inl ⟨.missingSubject scene, fun params => ?_⟩
      rw [Job.recommendFor, if_neg unknown, if_pos blank]
      rfl
    · refine .inr ⟨by simpa [Option.isSome_iff_ne_none] using unknown, fun params => ?_⟩
      rw [Job.recommendFor, if_neg unknown, if_neg blank]
      rfl

namespace Host

variable {host : Host} (staffed : host.registry.Staffed)
include staffed

theorem operate_scene_reads {scene subject : String} {params params' : Row}
    (agree : ∀ source ∈ (host.registry.graph.reliesOn? scene).getD [], ∀ parameter,
      host.registry.graph.Filters source parameter → parameter ≠ "id" →
        Row.value? params' parameter = Row.value? params parameter) (machine : Machine) :
    host.operate (.recommendFor scene subject params') machine =
      host.operate (.recommendFor scene subject params) machine := by
  rcases Job.recommendFor_uniform host.registry scene subject with ⟨failure, refused⟩ | ⟨known, made⟩
  · rw [host.operate_refused (.recommendFor scene subject params') (refused params'),
      host.operate_refused (.recommendFor scene subject params) (refused params)]
  · rw [host.operate_made (.recommendFor scene subject params') (made params'),
      host.operate_made (.recommendFor scene subject params) (made params)]
    let request := (Request.ofParams params).withSubject subject
    let other := (Request.ofParams params').withSubject subject
    have about : other.subject = request.subject := rfl
    have split : other.splitKey = request.splitKey := rfl
    have texts (name : String) (worker : Worker) (definition : Source) (parameter : String)
        (relied : host.registry.graph.ReliesOn scene name) (carried : host.registry.worker? name = some worker)
        (draws : worker.source? = some definition) (reads : definition.Reads parameter) :
        other.text? parameter = request.text? parameter := by
      refine Request.text?_congr about fun own => ?_
      rcases relied with same | listed
      · -- What carries out the scene is no source.
        cases same
        obtain ⟨worker', found⟩ := Option.isSome_iff_exists.mp known
        obtain ⟨here, scenic⟩ := Option.filter_eq_some_iff.mp found
        cases carried.symm.trans here
        exact absurd (worker.kind_of_source draws) (by simp [of_decide_eq_true scenic])
      · obtain ⟨task, found, serves⟩ := staffed.serves name worker carried
        cases serves.source draws
        exact agree name listed parameter ⟨definition, found, reads⟩ own
    exact host.perform_reads staffed about split (.process scene) texts 1 (Errand.reach_start _ _) _

theorem operate_invoke_reads {task : String} {params params' : Row}
    (subject : Row.value? params' "id" = Row.value? params "id")
    (key : Row.value? params' "bucketKey" = Row.value? params "bucketKey")
    (supplied : ∀ source ∈ (host.registry.graph.reliesOn? task).getD [],
      Row.value? params' source = Row.value? params source)
    (agree : ∀ source parameter, host.registry.graph.ReliesOn task source →
      host.registry.graph.Filters source parameter →
        Row.value? params' parameter = Row.value? params parameter) (machine : Machine) :
    host.operate (.invoke task params') machine = host.operate (.invoke task params) machine := by
  have about : (Request.ofParams params').subject = (Request.ofParams params).subject := by
    simp only [Request.ofParams, subject]
  have split : (Request.ofParams params').splitKey = (Request.ofParams params).splitKey :=
    Request.splitKey_congr about fun _ => key
  have seeding : host.registry.suppliedAll task (.ofParams params') _ =
      host.registry.suppliedAll task (.ofParams params) _ := Registry.suppliedAll_congr supplied
  have texts (name : String) (worker : Worker) (definition : Source) (parameter : String)
      (relied : host.registry.graph.ReliesOn task name) (carried : host.registry.worker? name = some worker)
      (draws : worker.source? = some definition) (reads : definition.Reads parameter) :
      (Request.ofParams params').text? parameter = (Request.ofParams params).text? parameter := by
    obtain ⟨owner, found, serves⟩ := staffed.serves name worker carried
    cases serves.source draws
    exact Request.text?_congr about fun _ => agree name parameter relied ⟨definition, found, reads⟩
  have carriedOut (seeds : List Table) :
      host.runJob (Job.invocation task (.ofParams params') seeds) machine =
        host.runJob (Job.invocation task (.ofParams params) seeds) machine := by
    have first : (Errand.reach host.registry.graph (.run task [])).sends (.run task []) := .inl rfl
    exact host.perform_reads staffed about split (.run task []) texts 1
      (Job.invocation_keeps first (fun _ => trivial) _ seeds) _
  simp only [host.operate_invoke, seeding, carriedOut]

end Host

/-- For every accepted graph and every registry, parameters have an influence only where they are
declared to have one. The answer to a scene and the calls that are made for it depend on them only
through the filters, other than by `id`, of the sources that the scene relies on: whatever else is
set in them makes no difference, be it `id` itself. The answer to an invocation and its calls depend
on them only through `id`, `bucketKey`, the tables supplied for the sources of the task, and the
filters of these sources and of the task. -/
theorem Host.answers_by_reads {flow : Flow} {graph : Graph} {offer : Offer} {host : Host}
    (accepted : Graph.ofFlow flow = .ok graph) (built : Registry.build graph offer = .ok host.registry)
    (machine : Machine) :
    (∀ scene subject params params',
        (∀ source ∈ (graph.reliesOn? scene).getD [], ∀ parameter, graph.Filters source parameter →
          parameter ≠ "id" → Row.value? params' parameter = Row.value? params parameter) →
        host.answer (.recommendFor scene subject params') machine =
          host.answer (.recommendFor scene subject params) machine) ∧
      (∀ scene subject params name value,
        (name = "id" ∨ ∀ source ∈ (graph.reliesOn? scene).getD [], ¬ graph.Filters source name) →
        host.answer (.recommendFor scene subject (Row.insert name value params)) machine =
          host.answer (.recommendFor scene subject params) machine) ∧
      ∀ task params params', Row.value? params' "id" = Row.value? params "id" →
        Row.value? params' "bucketKey" = Row.value? params "bucketKey" →
        (∀ source ∈ (graph.reliesOn? task).getD [], Row.value? params' source = Row.value? params source) →
        (∀ source parameter, graph.ReliesOn task source → graph.Filters source parameter →
          Row.value? params' parameter = Row.value? params parameter) →
        host.answer (.invoke task params') machine = host.answer (.invoke task params) machine := by
  have staffed := Registry.staffed_of_build (Graph.sound_of_ofFlow accepted) built
  have same : host.registry.graph = graph := Registry.graph_of_build built
  subst same
  have scenes (scene subject : String) (params params' : Row)
      (agree : ∀ source ∈ (host.registry.graph.reliesOn? scene).getD [], ∀ parameter,
        host.registry.graph.Filters source parameter → parameter ≠ "id" →
          Row.value? params' parameter = Row.value? params parameter) :
      host.answer (.recommendFor scene subject params') machine =
        host.answer (.recommendFor scene subject params) machine := by
    rw [Host.answer, Host.answer, Host.operate_scene_reads staffed agree machine]
    rfl
  refine ⟨scenes, ?_, ?_⟩
  · intro scene subject params name value unread
    refine scenes scene subject params _ fun source listed parameter filters own => ?_
    have apart : parameter ≠ name := by
      rintro rfl
      rcases unread with same | apart
      · exact own same
      · exact apart source listed filters
    exact Row.value?_insert_of_ne value params apart
  · intro task params params' subject key supplied agree
    rw [Host.answer, Host.answer, Host.operate_invoke_reads staffed subject key supplied agree machine]
    rfl

def townFlow : Flow :=
  { Flow.empty with
    sources := [⟨"places", [⟨"id", .str⟩, ⟨"city", .str⟩], none, some ⟨"city", "town"⟩⟩]
    services := [⟨"nearby", ["places"], [], none, none, false, none⟩]
    scenes := [⟨"home", ["nearby"], [], none⟩] }

def townGraph : Graph := ⟨townFlow.tasks, [], [("places", []), ("nearby", ["places"]), ("home", ["places"])]⟩

def townHost : Host where
  registry := ⟨townGraph, townFlow.tasks.map fun task => (task.name, .configured task)⟩
  backends query _ := match query with
    | .rows _ _ (some (column, value)) => (2, .ok [[("id", .string "p1"), (column, .string value)]])
    | .rows _ _ none => (2, .ok [])
    | .scores _ _ _ _ => (2, .ok [])
  timeout := 1000
  schedule := .eager

theorem town_flow_accepted : Graph.ofFlow townFlow = .ok townGraph :=
  Graph.ofFlow_ok_iff.mpr ⟨rfl, rfl, rfl, rfl, .cons (by cbv) (.cons (by cbv) (.cons (by cbv) .nil))⟩

theorem town_of_filters {source parameter : String} (filters : townGraph.Filters source parameter) :
    parameter = "town" := by
  obtain ⟨definition, found, filter, own, rfl⟩ := filters
  have member : Task.source definition ∈ townFlow.tasks := Task.mem_of_find? found
  have places : definition = ⟨"places", [⟨"id", .str⟩, ⟨"city", .str⟩], none, some ⟨"city", "town"⟩⟩ := by
    simpa [townFlow, Flow.tasks, Flow.empty] using member
  cases places
  cases own
  rfl

theorem town_answers_by_reads :
    let params : Row := [("town", .string "Oslo"), ("id", .string "u1")]
    (townHost.answer (.recommendFor "home" "u2" params) .start).1.isSuccess = true ∧
      townHost.answer (.recommendFor "home" "u2" [("town", .string "Oslo"), ("bucketKey", .string "k")]) .start =
        townHost.answer (.recommendFor "home" "u2" params) .start ∧
      townHost.answer (.recommendFor "home" "u2" (Row.insert "id" (.string "u3") params)) .start =
        townHost.answer (.recommendFor "home" "u2" params) .start ∧
      townHost.answer (.invoke "nearby" (Row.insert "debug" (.bool true) params)) .start =
        townHost.answer (.invoke "nearby" params) .start := by
  intro params
  have built : Registry.build townGraph ⟨["places"], [], []⟩ = .ok townHost.registry := rfl
  obtain ⟨scenes, others, tasks⟩ := townHost.answers_by_reads town_flow_accepted built .start
  refine ⟨by decide +kernel, ?_, others "home" "u2" params "id" (.string "u3") (.inl rfl), ?_⟩
  · refine scenes "home" "u2" params _ fun source listed parameter filters own => ?_
    rw [town_of_filters filters]
    rfl
  · have kept (name : String) (apart : name ≠ "debug") :
        (Row.insert "debug" (.bool true) params).value? name = params.value? name :=
      Row.value?_insert_of_ne _ _ apart
    refine tasks "nearby" params _ (kept "id" (by decide)) (kept "bucketKey" (by decide)) ?_ ?_
    · intro source listed
      have places : source = "places" := by simpa [townGraph, Graph.reliesOn?, List.lookup_cons] using listed
      exact places ▸ kept "places" (by decide)
    · intro source parameter relied filters
      exact town_of_filters filters ▸ kept "town" (by decide)

end Curator
