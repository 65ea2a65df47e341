import Curator.CommandLine.Report
import Curator.Proofs.Engine.Course
import Curator.Proofs.Operation.Job
/-!
What a layer does for a subject: it runs the one experiment that the subject is put in, on what the
layer itself was given, and passes on what that experiment produces.
-/

set_option autoImplicit false

namespace Curator

def Promise.inner : Promise where
  sends errand := ∀ name, errand ≠ .process name
  asks _ := True
  ends _ := True

theorem Task.plan_inner (task : Task) (request : Request) (input : List Table) :
    (task.plan request input).Keeps Promise.inner := by
  have ran (names : List String) : ∀ name ∈ names, ∀ input, Promise.inner.sends (.run name input) :=
    fun _ _ _ _ same => nomatch same
  have ended (attempt : Except Failure Table) : (Plan.ofTable attempt).Keeps Promise.inner :=
    Plan.keeps_ofTable (fun _ _ => trivial) fun _ _ => trivial
  cases task with
  | source | feature | transform | service =>
      refine (Task.plan_keeps _ request input).mono ?_ (fun _ _ => trivial) fun _ _ => trivial
      intro errand sends name same
      subst same
      cases sends.2
  | experiment definition =>
      refine Plan.keeps_chain (ran _) fun outputs => ?_
      split
      · trivial
      · split
        · trivial
        · rw [Experiment.rankPlan]
          split
          · trivial
          · refine ⟨trivial, fun answer => ?_⟩
            cases answer with
            | ok scores => exact ended _
            | error causes => trivial
  | layer definition =>
      change (definition.plan request input).Keeps Promise.inner
      rw [Layer.plan]
      split
      · trivial
      · exact Plan.keeps_stage (fun name member => ran _ name member input) fun _ => trivial
  | scene definition => exact Plan.keeps_chain (ran _) fun _ => ended _

theorem Errand.plan_inner {worker : Worker} {task : Task} (serves : worker.Serves task) (request : Request)
    (errand : Errand) : (errand.plan request worker).Keeps Promise.inner := by
  have executes (input : List Table) : (worker.execute request input).Keeps Promise.inner := by
    cases serves with
    | inline definition rows =>
        refine (definition.plan_keeps (some rows) request).mono ?_ (fun _ _ => trivial) fun _ _ => trivial
        intro errand sends
        cases sends.1
    | configured => exact task.plan_inner request input
    | replaced replacement => trivial
  have process : (worker.process request).Keeps Promise.inner :=
    Plan.keeps_andThen (executes [])
      (fun tables _ => Plan.keeps_ofTable (fun _ _ => trivial) fun _ _ => trivial) fun _ _ => trivial
  cases errand with
  | run name input => exact executes input
  | process name => exact process
  | fetch name => exact process

namespace Layer

def route (assigned : Except SplitError String) (input : List Table) : Plan :=
  match assigned with
  | .error error => .fail (.invalidSplit error)
  | .ok arm => .stage [arm] input .succeed

theorem plan_eq_route (layer : Layer) (request : Request) (input : List Table) :
    layer.plan request input = route (layer.assign request.splitKey) input := rfl

section Course

variable (host : Host) (request : Request) (layer : String) (assigned : Except SplitError String)
  (input : List Table)

def opening (deadline time : Nat) : List Activity :=
  [.sleeping (some ⟨layer, deadline, false⟩) time (route assigned input), .pending (.run layer input)]

def standby (deadline : Nat) (trail : List Activity) : List Activity :=
  trail.map fun part => .joining (some ⟨layer, deadline, false⟩) [part] .succeed

inductive Course : List Activity → Prop
  | sent : Course [.pending (.run layer input)]
  | begun (deadline time : Nat) : Course (opening layer assigned input deadline time)
  | refused {error : SplitError} (deadline time : Nat) (split : assigned = .error error) :
      Course (.settled (.error (.invalidSplit error)) :: opening layer assigned input deadline time)
  | trying {arm : String} {trail : List Activity} (deadline time : Nat) (split : assigned = .ok arm)
      (goes : Activity.Trail host request (.pending (.run arm input)) trail) :
      Course (standby layer deadline trail ++ opening layer assigned input deadline time)
  | failed {arm : String} {failure : Failure} {past : List Activity} (deadline time : Nat)
      (split : assigned = .ok arm)
      (goes : Activity.Trail host request (.pending (.run arm input)) (.settled (.error failure) :: past)) :
      Course (.settled (.error failure) ::
        (standby layer deadline (.settled (.error failure) :: past) ++ opening layer assigned input deadline time))
  | passing {arm : String} {tables : List Table} {past : List Activity} (deadline time last : Nat)
      (split : assigned = .ok arm)
      (goes : Activity.Trail host request (.pending (.run arm input)) (.settled (.ok tables) :: past)) :
      Course (.sleeping (some ⟨layer, deadline, false⟩) last (.succeed tables) ::
        (standby layer deadline (.settled (.ok tables) :: past) ++ opening layer assigned input deadline time))
  | passed {tables : List Table} {last : Nat} {entry : Option Entry} {past : List Activity}
      (passing : Course (.sleeping entry last (.succeed tables) :: past)) :
      Course (.settled (.ok tables) :: .sleeping entry last (.succeed tables) :: past)
  | late {before : Activity} {past : List Activity} (running : before.entry? ≠ none)
      (course : Course (before :: past)) :
      Course (.settled (.error (.timedOut layer host.timeout)) :: before :: past)

end Course

variable {host : Host} {request : Request} {layer : String} {definition : Layer} {input : List Table}

theorem Course.step (found : host.registry.worker? layer = some (.configured (.layer definition)))
    {before later : Activity} {past : List Activity} {machine after : Machine}
    (course : Course host request layer (definition.assign request.splitKey) input (before :: past))
    (step : Activity.Step host request before machine later after) :
    Course host request layer (definition.assign request.splitKey) input (later :: before :: past) := by
  have whole := course
  generalize states : before :: past = trail at course
  cases course with
  | sent =>
      obtain ⟨rfl, rfl⟩ := List.cons.inj states
      cases step with
      | refuse errand machine free missing => cases missing.symm.trans found
      | begin errand worker machine free taken =>
          cases found.symm.trans taken
          exact .begun _ _
      | expire activity entry machine running late => cases running
  | begun deadline time =>
      obtain ⟨rfl, rfl⟩ := List.cons.inj states
      generalize split : definition.assign request.splitKey = assigned at step whole ⊢
      cases assigned with
      | error error =>
          cases step with
          | finish => exact .refused deadline time rfl
          | expire activity entry machine running late =>
              cases running
              exact .late nofun whole
      | ok arm =>
          cases step with
          | send => exact .trying deadline time rfl .start
          | expire activity entry machine running late =>
              cases running
              exact .late nofun whole
  | refused | failed | passed | late =>
      cases states
      exact step.not_of_settled.elim
  | trying deadline time split goes =>
      obtain ⟨part, trail, rfl⟩ := goes.eq_cons
      obtain ⟨rfl, rfl⟩ := List.cons.inj states
      obtain ⟨tables, last, rfl, rfl⟩ | ⟨failure, rfl, rfl⟩ | rfl | ⟨next, _, _, moves, rfl⟩ := step.of_joining_one
      · exact .passing deadline time last split goes
      · exact .failed deadline time split goes
      · exact .late nofun whole
      · exact .trying deadline time split (goes.step moves)
  | passing deadline time last split goes =>
      obtain ⟨rfl, rfl⟩ := List.cons.inj states
      cases step with
      | finish => exact .passed whole
      | expire activity entry machine running late =>
          cases running
          exact .late nofun whole

theorem course_of_trail (found : host.registry.worker? layer = some (.configured (.layer definition)))
    {trail : List Activity} (goes : Activity.Trail host request (.pending (.run layer input)) trail) :
    Course host request layer (definition.assign request.splitKey) input trail := by
  induction goes with
  | start => exact .sent
  | step _ step ih => exact ih.step found step

end Layer

theorem Registry.configured_of_build {graph : Graph} {offer : Offer} {registry : Registry} (sound : graph.Sound)
    (unreplaced : offer.replacements = []) (built : build graph offer = .ok registry) {name : String}
    {task : Task} (found : graph.lookup name = some task) (inner : task.isSource = false) :
    registry.worker? name = some (.configured task) :=
  configured_of_unreplaced sound built (by simp [unreplaced]) found inner

theorem Job.recommendFor_made {registry : Registry} {scene : String} {home : Scene}
    (carried : registry.worker? scene = some (.configured (.scene home))) {subject : String}
    (present : Text.allBlank subject = false) (params : Row) :
    recommendFor registry scene subject params =
      .ok ⟨(Request.ofParams params).withSubject subject, [], 1, .send [.process scene] .succeed⟩ := by
  have known : (registry.workerOf? .scene scene).isNone = false := by
    simp [Registry.workerOf?, carried, Worker.kind, Task.kind]
  simp only [recommendFor, known, present]
  rfl

theorem Activity.PlanOf.runs_layer {host : Host} (staffed : host.registry.Staffed) {request : Request}
    {scene : String} {entry : Option Entry} {own : Plan}
    (plan : PlanOf host request (.send [.process scene] .succeed) entry own) {errands : List Errand}
    {next : List Table → Plan} (leads : own.Leads (.send errands next)) {layer : String} {definition : Layer}
    (found : host.registry.graph.lookup layer = some (.layer definition)) (apart : layer ≠ scene) :
    ∀ errand ∈ errands, errand.task = layer → ∃ input, errand = .run layer input := by
  intro errand sent same
  subst same
  cases plan with
  | whole =>
      let outer : Promise := ⟨fun errand => errand = .process scene, fun _ => True, fun _ => True⟩
      have keeps : (Plan.send [.process scene] .succeed).Keeps outer :=
        ⟨fun _ member => List.mem_singleton.mp member, fun _ => trivial⟩
      have called := (keeps.leads leads).1 errand sent
      exact absurd (congrArg Errand.task called) apart
  | @task caller worker deadline taken =>
      obtain ⟨task, here, serves⟩ := staffed.serves caller.task worker taken
      have sends := ((Errand.plan_keeps serves request caller).leads leads).1 errand sent
      have inner := ((Errand.plan_inner serves request caller).leads leads).1 errand sent
      cases errand with
      | run name input => exact ⟨input, rfl⟩
      | process name => exact absurd rfl (inner name)
      | fetch name =>
          obtain ⟨target, referred, data⟩ := Graph.isData_of_fetch staffed.sound here sends rfl
          cases found.symm.trans referred
          cases data

/-- For every accepted graph, every registry in which no task is replaced, every layer and scene of the
graph, every subject that is not blank and any parameters: the experiment that the command line reports
for the layer and the subject, or else the error, is what the layer comes to whenever it is run for the
scene and the subject, on whatever input, in whatever order all steps are taken. It then runs this
experiment alone, on its own input, and the experiment's outcome is its own. Every part of every join in
a run is what has become of an errand, and the errands for the layer are such runs of it. -/
theorem Host.layer_assigned {flow : Flow} {graph : Graph} {offer : Offer} {host : Host}
    (accepted : Graph.ofFlow flow = .ok graph) (unreplaced : offer.replacements = [])
    (built : Registry.build graph offer = .ok host.registry) {layer : String} {definition : Layer}
    (found : graph.lookup layer = some (.layer definition)) {scene : String} {home : Scene}
    (staged : graph.lookup scene = some (.scene home)) {subject : String}
    (present : Text.allBlank subject = false) (params : Row) :
    let request := (Request.ofParams params).withSubject subject
    let plan : Plan := .send [.process scene] .succeed
    let assigned := definition.assign subject
    graph.bucket? layer subject = some assigned ∧
      CommandLine.bucketReport graph layer subject = (match assigned with
        | .error error => .fail (Failure.invalidSplit error).message
        | .ok arm => .ok [.text s!"Subject {subject} in layer {layer} → {arm}"]) ∧
      (∀ machine, ∃ steps, Activity.Run host request steps (.sleeping none machine.clock plan)
        (machine.withMemo []) (.settled (host.operate (.recommendFor scene subject params) machine).1)
        (host.operate (.recommendFor scene subject params) machine).2) ∧
      (∀ input, definition.plan request input = Layer.route assigned input) ∧
      (∀ input trail, Activity.Trail host request (.pending (.run layer input)) trail →
        Layer.Course host request layer assigned input trail) ∧
      ∀ steps time machine later after entry parts next,
        Activity.Run host request steps (.sleeping none time plan) machine later after →
        Activity.Inside (.joining entry parts next) later →
          ∃ own errands, Activity.PlanOf host request plan entry own ∧ own.Leads (.send errands next) ∧
            List.Forall₂ (Activity.StemsFrom host request) parts errands ∧
            ∀ errand ∈ errands, errand.task = layer → ∃ input, errand = .run layer input := by
  intro request plan assigned
  have sound : graph.Sound := Graph.sound_of_ofFlow accepted
  have staffed := Registry.staffed_of_build sound built
  have carried := Registry.configured_of_build sound unreplaced built found rfl
  have made : Operation.job host.registry (.recommendFor scene subject params) = .ok ⟨request, [], 1, plan⟩ :=
    Job.recommendFor_made (Registry.configured_of_build sound unreplaced built staged rfl) present params
  have same : host.registry.graph = graph := Registry.graph_of_build built
  subst same
  have bucketed : host.registry.graph.bucket? layer subject = some assigned := by
    simp only [Graph.bucket?, found]
    rfl
  refine ⟨bucketed, ?_, ?_, definition.plan_eq_route request,
    fun input trail goes => Layer.course_of_trail carried goes, ?_⟩
  · simp only [CommandLine.bucketReport, bucketed]
    cases assigned <;> rfl
  · intro machine
    simp only [Host.operate, made]
    exact host.runJob_settles staffed made machine
  · intro steps time machine later after entry parts next run inside
    have start : Activity.Conducts host request plan (.sleeping none time plan) := .sleeping .whole .refl
    have conducts := (run.conducts start).inside inside
    cases conducts with
    | joining own leads sent =>
        refine ⟨_, _, own, leads, sent, own.runs_layer staffed leads found ?_⟩
        rintro rfl
        cases found.symm.trans staged

def shareLayer (share : Float) : Layer := ⟨"split", true, [⟨"plain", share⟩, ⟨"fresh", share⟩]⟩

def shareFlow (share : Float) : Flow :=
  { Flow.empty with
    services := [⟨"hot", [], [], none, none, false, none⟩]
    experiments := [⟨"plain", ["hot"], none⟩, ⟨"fresh", ["hot"], none⟩]
    layers := [shareLayer share]
    scenes := [⟨"home", ["split"], [], none⟩] }

def shareReliances : List (String × List String) :=
  [("hot", []), ("plain", []), ("fresh", []), ("split", []), ("home", [])]

theorem share_flow_resolved (share : Float) :
    List.Forall₂ (fun task reliance =>
      (do return (task.name, ← resolve (shareFlow share).tasks task.name)) = .ok reliance)
      (shareFlow share).tasks shareReliances :=
  .cons (by cbv) (.cons (by cbv) (.cons (by cbv) (.cons (by cbv) (.cons (by cbv) .nil))))

def evenGraph : Graph := ⟨(shareFlow 0.5).tasks, [], shareReliances⟩

theorem even_flow_accepted : Graph.ofFlow (shareFlow 0.5) = .ok evenGraph :=
  Graph.ofFlow_ok_iff.mpr ⟨rfl, rfl, rfl, rfl, share_flow_resolved 0.5⟩

def evenHost : Host where
  registry := ⟨evenGraph, evenGraph.tasks.map fun task => (task.name, .configured task)⟩
  backends
    | .rows _ _ _, _ => (0, .ok [])
    | .scores _ _ _ _, _ => (0, .ok [])
  timeout := 1000
  schedule := .eager

def evenRequest : Request :=
  (Request.ofParams [("id", .string "u9"), ("bucketKey", .string "k")]).withSubject "u1"

theorem even_split_fresh : (shareLayer 0.5).assign "u1" = .ok "fresh" := by decide +kernel

theorem even_subject_runs_fresh :
    let parts : List Activity := [.joining (some ⟨"split", 1000, false⟩) [.pending (.run "fresh" [])] .succeed]
    evenGraph.bucket? "split" "u1" = some (.ok "fresh") ∧
      ∃ next own errands, Activity.Run evenHost evenRequest 5
        (.sleeping none 0 (.send [.process "home"] .succeed)) .start
        (.joining none [.joining (some ⟨"home", 1000, false⟩) parts next] .succeed) .start ∧
        Activity.PlanOf evenHost evenRequest (.send [.process "home"] .succeed) (some ⟨"home", 1000, false⟩) own ∧
        own.Leads (.send errands next) ∧ List.Forall₂ (Activity.StemsFrom evenHost evenRequest) parts errands := by
  intro parts
  have built : Registry.build evenGraph .empty = .ok evenHost.registry := rfl
  have layered : evenGraph.lookup "split" = some (.layer (shareLayer 0.5)) := rfl
  have staged : evenGraph.lookup "home" = some (.scene ⟨"home", ["split"], [], none⟩) := rfl
  obtain ⟨bucketed, reported, operated, routed, courses, runs⟩ := Host.layer_assigned even_flow_accepted rfl built
    layered staged (by decide : Text.allBlank "u1" = false) [("id", .string "u9"), ("bucketKey", .string "k")]
  have planned : (Errand.run "split" []).plan evenRequest (.configured (.layer (shareLayer 0.5))) =
      .stage ["fresh"] [] .succeed := by
    refine (routed []).trans ?_
    rw [even_split_fresh]
    rfl
  have begun : Activity.Step evenHost evenRequest (.pending (.run "split" [])) .start
      (.sleeping (some ⟨"split", 1000, false⟩) 0 (.stage ["fresh"] [] .succeed)) .start := by
    rw [← planned]
    exact .begin (.run "split" []) _ .start nofun rfl
  obtain ⟨next, run⟩ : ∃ next, Activity.Run evenHost evenRequest 5
      (.sleeping none 0 (.send [.process "home"] .succeed)) .start
      (.joining none [.joining (some ⟨"home", 1000, false⟩) parts next] .succeed) .start :=
    ⟨_, .step (.send _ _ _ _ _ (Nat.le_refl 0)) <|
      .step (.part none [] [] _ (.begin (.process "home") _ _ nofun rfl)) <|
      .step (.part none [] [] _ (.send _ _ _ _ _ (Nat.le_refl 0))) <|
      .step (.part none [] [] _ (.part _ [] [] _ begun)) <|
      .step (.part none [] [] _ (.part _ [] [] _ (.send _ _ _ _ _ (Nat.le_refl 0)))) <| .stay _ _⟩
  have inside : Activity.Inside (.joining (some ⟨"home", 1000, false⟩) parts next)
      (.joining none [.joining (some ⟨"home", 1000, false⟩) parts next] .succeed) :=
    .part List.mem_cons_self (.here _)
  obtain ⟨own, errands, plan, leads, stems, -⟩ := runs _ 0 _ _ _ _ _ _ run inside
  exact ⟨bucketed.trans (congrArg some even_split_fresh), next, own, errands, run, plan, leads, stems⟩

end Curator
