import Curator.Proofs.Engine.Refinement
import Mathlib.Logic.Relation
/-!
The course that an activity takes, whatever happens around it between two of its steps, and where the
parts of a join come from: each of them is what has become of an errand that a plan sent.
-/

set_option autoImplicit false

namespace Curator

namespace Plan

inductive Goes : Plan → Plan → Prop
  | wait (delay : Nat) (rest : Plan) : Goes (.wait delay rest) rest
  | ask (query : Query) (next : query.Answer → Plan) (answer : query.Answer) : Goes (.ask query next) (next answer)
  | send (errands : List Errand) (next : List Table → Plan) (tables : List Table) :
      Goes (.send errands next) (next tables)

abbrev Leads : Plan → Plan → Prop := Relation.ReflTransGen Goes

theorem Keeps.leads {promise : Promise} {plan later : Plan} (keeps : plan.Keeps promise)
    (leads : plan.Leads later) : later.Keeps promise := by
  induction leads with
  | refl => exact keeps
  | tail _ goes ih =>
      cases goes with
      | wait => exact ih
      | ask query next answer => exact ih.2 answer
      | send errands next tables => exact ih.2 tables

end Plan

namespace Activity

variable {host : Host} {request : Request}

inductive Trail (host : Host) (request : Request) (first : Activity) : List Activity → Prop
  | start : Trail host request first [first]
  | step {before later : Activity} {past : List Activity} {machine after : Machine}
      (trail : Trail host request first (before :: past))
      (step : Step host request before machine later after) : Trail host request first (later :: before :: past)

theorem Trail.eq_cons {first : Activity} {trail : List Activity} (goes : Trail host request first trail) :
    ∃ latest past, trail = latest :: past := by
  cases goes with
  | start => exact ⟨first, [], rfl⟩
  | step => exact ⟨_, _, rfl⟩

def StemsFrom (host : Host) (request : Request) (activity : Activity) (errand : Errand) : Prop :=
  ∃ past, Trail host request (.pending errand) (activity :: past)

theorem StemsFrom.step {errand : Errand} {activity later : Activity} {machine after : Machine}
    (stems : StemsFrom host request activity errand) (step : Step host request activity machine later after) :
    StemsFrom host request later errand := by
  obtain ⟨past, trail⟩ := stems
  exact ⟨activity :: past, trail.step step⟩

inductive PlanOf (host : Host) (request : Request) (whole : Plan) : Option Entry → Plan → Prop
  | whole : PlanOf host request whole none whole
  | task {errand : Errand} {worker : Worker} (deadline : Nat)
      (found : host.registry.worker? errand.task = some worker) :
      PlanOf host request whole (some ⟨errand.task, deadline, errand.isFetch⟩) (errand.plan request worker)

inductive Conducts (host : Host) (request : Request) (whole : Plan) : Activity → Prop
  | settled (outcome : Outcome) : Conducts host request whole (.settled outcome)
  | pending (errand : Errand) : Conducts host request whole (.pending errand)
  | sleeping {entry : Option Entry} {time : Nat} {plan rest : Plan} (own : PlanOf host request whole entry plan)
      (leads : plan.Leads rest) : Conducts host request whole (.sleeping entry time rest)
  | joining {entry : Option Entry} {parts : List Activity} {next : List Table → Plan} {plan : Plan}
      {errands : List Errand} (own : PlanOf host request whole entry plan)
      (leads : plan.Leads (.send errands next)) (sent : List.Forall₂ (StemsFrom host request) parts errands) :
      Conducts host request whole (.joining entry parts next)

variable {whole : Plan}

theorem Step.not_of_settled {outcome : Outcome} {later : Activity} {machine after : Machine}
    (step : Step host request (.settled outcome) machine later after) : False := by
  cases step with
  | expire activity entry machine running late => cases running

theorem Step.of_joining_one {own : Entry} {part later : Activity} {next : List Table → Plan}
    {machine after : Machine} (step : Step host request (.joining (some own) [part] next) machine later after) :
    (∃ tables time, part = .settled (.ok tables) ∧ later = .sleeping (some own) time (next tables)) ∨
      (∃ failure, part = .settled (.error failure) ∧ later = .settled (.error failure)) ∨
      later = .settled (.error (.timedOut own.task host.timeout)) ∨
      ∃ part' between between', Step host request part between part' between' ∧
        later = .joining (some own) [part'] next := by
  generalize single : [part] = parts at step
  cases step with
  | proceed entry results next machine =>
      cases results with
      | nil => cases single
      | cons tables rest =>
          obtain ⟨rfl, none⟩ := List.cons.inj single
          cases List.map_eq_nil_iff.mp none.symm
          exact .inl ⟨tables, machine.clock, rfl, by simp⟩
  | abort entry parts next failure machine failed =>
      subst single
      exact .inr (.inl ⟨failure, (List.mem_singleton.mp failed).symm, rfl⟩)
  | expire activity entry machine running late =>
      cases running
      exact .inr (.inr (.inl rfl))
  | part entry before behind next step =>
      cases before with
      | nil =>
          obtain ⟨rfl, rfl⟩ := List.cons.inj single
          exact .inr (.inr (.inr ⟨_, _, _, step, rfl⟩))
      | cons head before => simp at single

theorem Step.conducts {activity later : Activity} {machine after : Machine}
    (step : Step host request activity machine later after) (conducts : Conducts host request whole activity) :
    Conducts host request whole later := by
  cases step with
  | refuse | reuse | finish | abort | expire => exact .settled _
  | begin errand worker machine free found => exact .sleeping (.task _ found) .refl
  | wait =>
      cases conducts with
      | sleeping own leads => exact .sleeping own (leads.tail (.wait _ _))
  | ask =>
      cases conducts with
      | sleeping own leads => exact .sleeping own (leads.tail (.ask _ _ _))
  | send entry time errands next machine =>
      cases conducts with
      | sleeping own leads =>
          refine .joining own leads ?_
          rw [List.forall₂_map_left_iff]
          exact List.forall₂_same.mpr fun errand _ => ⟨[], .start⟩
  | proceed =>
      cases conducts with
      | joining own leads sent => exact .sleeping own (leads.tail (.send _ _ _))
  | part entry before behind next step =>
      cases conducts with
      | joining own leads sent =>
          obtain ⟨errand, -, stems, replace⟩ := forall₂_splice sent
          exact .joining own leads (replace _ (stems.step step))

theorem StemsFrom.conducts {errand : Errand} {activity : Activity} (stems : StemsFrom host request activity errand) :
    Conducts host request whole activity := by
  obtain ⟨past, trail⟩ := stems
  generalize states : activity :: past = trail' at trail
  induction trail generalizing activity past with
  | start =>
      cases states
      exact .pending errand
  | step trail step ih =>
      cases states
      exact step.conducts (ih _ rfl)

theorem Run.conducts {steps : Nat} {activity later : Activity} {machine after : Machine}
    (run : Run host request steps activity machine later after) (conducts : Conducts host request whole activity) :
    Conducts host request whole later := by
  induction run with
  | stay => exact conducts
  | idle _ _ ih => exact ih conducts
  | step first _ ih => exact ih (first.conducts conducts)

theorem Conducts.inside {inner activity : Activity} (conducts : Conducts host request whole activity)
    (inside : Inside inner activity) : Conducts host request whole inner := by
  induction inside with
  | here => exact conducts
  | part member _ ih =>
      cases conducts with
      | joining own leads sent =>
          obtain ⟨before, behind, rfl⟩ := List.append_of_mem member
          obtain ⟨errand, -, stems, -⟩ := forall₂_splice sent
          exact ih stems.conducts

/-! How an errand ends that finds nothing in the memo. -/

inductive Pursues (host : Host) (request : Request) (errand : Errand) : Activity → Prop
  | pending : Pursues host request errand (.pending errand)
  | sleeping {worker : Worker} {entry : Option Entry} {time : Nat} {rest : Plan}
      (found : host.registry.worker? errand.task = some worker) (leads : (errand.plan request worker).Leads rest) :
      Pursues host request errand (.sleeping entry time rest)
  | joining {worker : Worker} {entry : Option Entry} {parts : List Activity} {next : List Table → Plan}
      {errands : List Errand} (found : host.registry.worker? errand.task = some worker)
      (leads : (errand.plan request worker).Leads (.send errands next)) :
      Pursues host request errand (.joining entry parts next)
  | failed (failure : Failure) : Pursues host request errand (.settled (.error failure))
  | done {worker : Worker} {tables : List Table} (found : host.registry.worker? errand.task = some worker)
      (leads : (errand.plan request worker).Leads (.succeed tables)) :
      Pursues host request errand (.settled (.ok tables))

theorem Step.pursues {errand : Errand} (unkept : errand.isFetch = false) {activity later : Activity}
    {machine after : Machine} (step : Step host request activity machine later after)
    (pursues : Pursues host request errand activity) : Pursues host request errand later := by
  cases step with
  | refuse | abort | expire => exact .failed _
  | begin =>
      cases pursues with
      | pending => exact .sleeping ‹_› .refl
  | reuse =>
      cases pursues with
      | pending => cases unkept
  | wait =>
      cases pursues with
      | sleeping found leads => exact .sleeping found (leads.tail (.wait _ _))
  | ask =>
      cases pursues with
      | sleeping found leads => exact .sleeping found (leads.tail (.ask _ _ _))
  | send =>
      cases pursues with
      | sleeping found leads => exact .joining found leads
  | finish entry time outcome =>
      cases pursues with
      | sleeping found leads =>
          cases outcome with
          | ok tables => exact .done found leads
          | error failure => exact .failed failure
  | proceed =>
      cases pursues with
      | joining found leads => exact .sleeping found (leads.tail (.send _ _ _))
  | part =>
      cases pursues with
      | joining found leads => exact .joining found leads

theorem StemsFrom.leads {errand : Errand} (unkept : errand.isFetch = false) {tables : List Table}
    (stems : StemsFrom host request (.settled (.ok tables)) errand) :
    ∃ worker, host.registry.worker? errand.task = some worker ∧
      (errand.plan request worker).Leads (.succeed tables) := by
  obtain ⟨past, trail⟩ := stems
  have pursues {first latest : Activity} {past : List Activity} (trail : Trail host request first (latest :: past))
      (start : Pursues host request errand first) : Pursues host request errand latest := by
    generalize states : latest :: past = trail' at trail
    induction trail generalizing latest past with
    | start =>
        cases states
        exact start
    | step _ step ih =>
        cases states
        exact step.pursues unkept (ih rfl)
  cases pursues trail .pending with
  | done found leads => exact ⟨_, found, leads⟩

inductive Relays (host : Host) (request : Request) (errand : Errand) : Activity → Prop
  | ready (time : Nat) : Relays host request errand (.sleeping none time (.send [errand] .succeed))
  | joined {part : Activity} (stems : StemsFrom host request part errand) :
      Relays host request errand (.joining none [part] .succeed)
  | answered {tables : List Table} (time : Nat) (stems : StemsFrom host request (.settled (.ok tables)) errand) :
      Relays host request errand (.sleeping none time (.succeed tables))
  | passed {tables : List Table} (stems : StemsFrom host request (.settled (.ok tables)) errand) :
      Relays host request errand (.settled (.ok tables))
  | failed (failure : Failure) : Relays host request errand (.settled (.error failure))

theorem Step.relays {errand : Errand} {activity later : Activity} {machine after : Machine}
    (step : Step host request activity machine later after) (relays : Relays host request errand activity) :
    Relays host request errand later := by
  cases relays with
  | passed | failed => exact step.not_of_settled.elim
  | ready time =>
      cases step with
      | send => exact .joined ⟨[], .start⟩
      | expire activity entry machine running late => cases running
  | answered time stems =>
      cases step with
      | finish => exact .passed stems
      | expire activity entry machine running late => cases running
  | @joined part stems =>
      generalize single : [part] = parts at step
      cases step with
      | abort => exact .failed _
      | expire activity entry machine running late => cases running
      | proceed entry results next machine =>
          obtain ⟨tables, rfl, rfl⟩ : ∃ tables, results = [tables] ∧ part = .settled (.ok tables) := by
            cases results with
            | nil => cases single
            | cons tables rest =>
                obtain ⟨own, none⟩ := List.cons.inj single
                exact ⟨tables, by rw [List.map_eq_nil_iff.mp none.symm], own⟩
          rw [List.flatten_singleton]
          exact .answered _ stems
      | part entry before behind next step =>
          cases before with
          | nil =>
              obtain ⟨rfl, rfl⟩ := List.cons.inj single
              exact .joined (stems.step step)
          | cons head before => simp at single

theorem Run.relays {errand : Errand} {steps : Nat} {activity later : Activity} {machine after : Machine}
    (run : Run host request steps activity machine later after) (relays : Relays host request errand activity) :
    Relays host request errand later := by
  induction run with
  | stay => exact relays
  | idle _ _ ih => exact ih relays
  | step first _ ih => exact ih (first.relays relays)

theorem Run.relayed {errand : Errand} {steps time : Nat} {tables : List Table} {machine after : Machine}
    (run : Run host request steps (.sleeping none time (.send [errand] .succeed)) machine (.settled (.ok tables)) after) :
    StemsFrom host request (.settled (.ok tables)) errand := by
  cases run.relays (.ready time) with
  | passed stems => exact stems

end Activity

end Curator
