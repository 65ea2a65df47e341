import Curator.Proofs.Engine.Nesting
import Curator.Proofs.Operation.Refinement
/-!
Tasks descend: over an accepted graph, whatever a task is made to run or to fetch lies directly below
it, so that tasks in progress neither nest without end nor wait for each other in a circle.
-/

set_option autoImplicit false

namespace Curator

structure Activity.Descends (graph : Graph) (activity : Activity) (machine : Machine) : Prop where
  direct : ∀ own parts next, Inside (.joining (some own) parts next) activity →
    ∀ part ∈ parts, part.SentBy fun errand => Depends graph.tasks own.task errand.task
  nested : ∀ names, activity.Nest names →
    names.length ≤ graph.size ∨ ∃ name, names = [name] ∧ graph.lookup name = none
  acyclic : ∀ name, ¬ Relation.TransGen activity.Awaits name name
  unblocked : activity.Waits → activity.Unblocked machine

/-- However long everything takes and whoever has the next turn, the plan comes to an end: there is a
last step, and wherever the work has got to, it can be carried on until it has settled. -/
def Plan.Terminates (host : Host) (request : Request) (machine : Machine) (plan : Plan) : Prop :=
  ∃ bound, ∀ steps later after,
    Activity.Run host request steps (.sleeping none machine.clock plan) machine later after →
      steps ≤ bound ∧ ∃ more outcome last, Activity.Run host request more later after (.settled outcome) last

variable {host : Host}

theorem Activity.Abides.descends {graph : Graph} (sound : graph.Sound) {activity : Activity}
    {machine : Machine} (abides : activity.Abides (Promise.dependencies graph.tasks))
    (accounted : activity.Accounted machine) : activity.Descends graph machine where
  direct own parts next inside part member := by
    cases abides.inside inside with
    | joining sent all keeps =>
        refine (sent part member).mono ?_
        intro errand depends
        exact depends own rfl
  nested names nest := abides.nest_length sound nest
  acyclic name around := by
    have reached : Reaches graph.tasks name name :=
      Relation.TransGen.closed (fun _ _ awaits => abides.awaits awaits) name name around
    exact Graph.acyclic_of_sound sound name reached
  unblocked waits := abides.unblocked (Graph.wellFounded_of_sound sound) accounted waits

theorem Activity.Run.descends (staffed : host.registry.Staffed) {request : Request} {machine after : Machine}
    (idle : ∀ name, machine.memo.slot? name ≠ some .busy) {plan : Plan} {steps : Nat} {later : Activity}
    (run : Activity.Run host request steps (.sleeping none machine.clock plan) machine later after) :
    later.Descends host.registry.graph after := by
  have free : plan.Keeps (Promise.dependencies host.registry.graph.tasks none) :=
    plan.keeps_of_free (fun _ _ => nofun) (fun _ => trivial) fun _ => trivial
  have abides := run.abides (staffed.honors_dependencies request) (.sleeping free)
  have accounted := run.accounted (accounted_start machine.clock plan idle)
  exact abides.descends staffed.sound accounted

theorem Activity.Run.settles (staffed : host.registry.Staffed) {request : Request} {machine after : Machine}
    (idle : ∀ name, machine.memo.slot? name ≠ some .busy) {plan : Plan} {bound : Nat}
    (short : ∀ steps later after,
      Activity.Run host request steps (.sleeping none machine.clock plan) machine later after → steps ≤ bound)
    {steps left : Nat} {later : Activity} (enough : bound < steps + left)
    (run : Activity.Run host request steps (.sleeping none machine.clock plan) machine later after) :
    ∃ more outcome last, Activity.Run host request more later after (.settled outcome) last := by
  induction left generalizing steps later after with
  | zero =>
      have most := short steps later after run
      omega
  | succ left ih =>
      by_cases waits : later.Waits
      · obtain ⟨between, next, after', idled, step⟩ : ∃ between next after', after.Idled between ∧
            Step host request later between next after' := ((run.descends staffed idle).unblocked waits).steps
        have further : Activity.Run host request 1 later after next after' := .idle idled (.one step)
        obtain ⟨more, outcome, last, rest⟩ := ih (by omega) (run.append further)
        exact ⟨more + 1, outcome, last, further.append rest⟩
      · obtain ⟨outcome, rfl⟩ := settled_of_not_waits waits
        exact ⟨0, outcome, after, .stay _ _⟩

theorem Plan.terminates_of_spends (staffed : host.registry.Staffed) {request : Request} {machine : Machine}
    (idle : ∀ name, machine.memo.slot? name ≠ some .busy) {plan : Plan} {total : Nat}
    (spends : plan.Spends (host.allowance (host.registry.graph.size + 1)) total) :
    plan.Terminates host request machine := by
  have short (steps : Nat) (later : Activity) (after : Machine)
      (run : Activity.Run host request steps (.sleeping none machine.clock plan) machine later after) :
      steps ≤ total := by
    obtain ⟨less, bound, -⟩ := run.within staffed (Activity.within_start staffed spends machine.clock)
    omega
  refine ⟨total, fun steps later after run => ⟨short steps later after run, ?_⟩⟩
  have enough : total < steps + (total + 1) := by omega
  exact run.settles staffed idle short enough

/-- For every accepted graph and every registry, whatever is carried out on a machine where nothing
is in progress, and in whatever order its steps are taken: dependencies lead to an end; every errand
that a task sends is for one of its dependencies; tasks are within one another no deeper than there
are tasks; no table is waited for by the one who is to produce it; something can always go on; and
the work that stages, fetches and chains come to has a last step. -/
theorem Host.errands_descend {flow : Flow} {graph : Graph} {offer : Offer}
    (accepted : Graph.ofFlow flow = .ok graph) (built : Registry.build graph offer = .ok host.registry)
    (request : Request) (machine : Machine) (idle : ∀ name, machine.memo.slot? name ≠ some .busy) :
    (WellFounded fun dependency name => Depends graph.tasks name dependency) ∧
      (∀ plan steps later after,
        Activity.Run host request steps (.sleeping none machine.clock plan) machine later after →
          later.Descends graph after) ∧
      (∀ errands, (Plan.send errands .succeed).Terminates host request machine) ∧
      ∀ tasks input, (Plan.chain tasks input .succeed).Terminates host request machine := by
  have staffed := Registry.staffed_of_build (Graph.sound_of_ofFlow accepted) built
  have same : host.registry.graph = graph := Registry.graph_of_build built
  subst same
  refine ⟨Graph.wellFounded_of_sound staffed.sound, ?_, ?_, ?_⟩
  · intro plan steps later after run
    exact run.descends staffed idle
  · intro errands
    have spends : (Plan.send errands .succeed).Spends (host.allowance (host.registry.graph.size + 1)) _ :=
      ⟨1, Nat.le_refl _, fun tables => Plan.spends_done (.ok tables)⟩
    exact Plan.terminates_of_spends staffed idle spends
  · intro tasks input
    exact Plan.terminates_of_spends staffed idle
      (Plan.spends_chain fun tables => Plan.spends_done (.ok tables))

theorem shared_features_descend :
    ∃ steps later after, Activity.Run sharedHost .empty steps
        (.sleeping none 0 (.send [.fetch "fresh", .fetch "liked"] .succeed)) .start later after ∧
      later.Awaits "liked" "items" ∧ after.memo.slot? "items" = some .busy ∧
      later.Descends sharedGraph after := by
  have free (name : String) : Machine.start.memo.slot? name ≠ some .busy := nofun
  obtain ⟨-, descends, -⟩ := sharedHost.errands_descend shared_flow_accepted shared_registry_built .empty
    .start free
  have run : ∃ later after, Activity.Run sharedHost .empty 6
      (.sleeping none 0 (.send [.fetch "fresh", .fetch "liked"] .succeed)) .start later after ∧
      later.Awaits "liked" "items" ∧ after.memo.slot? "items" = some .busy := by
    refine ⟨_, _, .step (.send none 0 _ _ _ (Nat.le_refl 0)) <|
      .step (.part none [] [_] _ (.begin (.fetch "fresh") _ _ (fun _ => .inl rfl) rfl)) <|
      .step (.part none [] [_] _ (.send _ _ _ _ _ (Nat.le_refl _))) <|
      .step (.part none [] [_] _ (.part _ [] [] _ (.begin (.fetch "items") _ _ (fun _ => .inl rfl) rfl))) <|
      .step (.part none [_] [] _ (.begin (.fetch "liked") _ _ (fun _ => .inl rfl) rfl)) <|
      .step (.part none [_] [] _ (.send _ _ _ _ _ (Nat.le_refl _))) (.stay _ _), ?_, ?_⟩
    · exact ⟨_, _, _, .part (.tail _ (.head _)) (.here _), .head _, _, .head _, _, .here _, .pending⟩
    · rfl
  obtain ⟨later, after, run, awaits, busy⟩ := run
  exact ⟨6, later, after, run, awaits, busy, descends _ 6 later after run⟩

end Curator
