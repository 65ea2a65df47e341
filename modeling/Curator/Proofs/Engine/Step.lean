import Curator.Operation
/-!
The steps that an activity can take, whoever has the next turn: what each of them does to the
activity and to the machine, guards included. A run is any number of steps, between which time may
pass. Facts about everything that can happen are proved for one step and carried to runs.
-/

set_option autoImplicit false

namespace Curator

def Memo.IsFree (memo : Memo) (task : String) : Prop :=
  memo.slot? task = none ∨ memo.slot? task = some .vacant

theorem Memo.IsFree.not_filled {memo : Memo} {task : String} (free : memo.IsFree task) (table : Table) :
    memo.slot? task ≠ some (.filled table) := by
  intro filled
  rcases free with absent | vacant
  · cases absent.symm.trans filled
  · cases vacant.symm.trans filled

theorem Memo.IsFree.not_busy {memo : Memo} {task : String} (free : memo.IsFree task) :
    memo.slot? task ≠ some .busy := by
  intro busy
  rcases free with absent | vacant
  · cases absent.symm.trans busy
  · cases vacant.symm.trans busy

theorem Memo.slot?_of_cached {memo : Memo} {name : String} {table : Table}
    (cached : memo.cached? name = some table) : memo.slot? name = some (.filled table) := by
  rw [Memo.cached?] at cached
  split at cached
  · cases cached
    assumption
  · cases cached

theorem Memo.cached_of_slot? {memo : Memo} {name : String} {table : Table}
    (filled : memo.slot? name = some (.filled table)) : memo.cached? name = some table := by
  simp [Memo.cached?, filled]

theorem Memo.slot?_seed (memo : Memo) (name other : String) (table : Table) :
    (memo.seed name table).1.slot? other =
      if memo.slot? name = none ∧ other = name then some (.filled table) else memo.slot? other := by
  rw [Memo.seed]
  split
  · rename_i slot present
    simp [present]
  · rename_i absent
    by_cases same : other = name
    · simp [absent, same, Memo.slot?_put_self]
    · simp [same, Memo.slot?_put_of_ne]

theorem Machine.callsTo_record (machine : Machine) (query : Query) (backend : Backend) :
    (machine.record query).callsTo backend =
      machine.callsTo backend + if query.backend = backend then 1 else 0 := by
  simp [Machine.callsTo, Machine.record, List.countP_append, List.countP_cons]

structure Machine.Idled (before after : Machine) : Prop where
  memo : after.memo = before.memo
  calls : after.calls = before.calls
  clock : before.clock ≤ after.clock
  turns : before.turns ≤ after.turns

theorem Machine.Idled.refl (machine : Machine) : machine.Idled machine :=
  ⟨rfl, rfl, Nat.le_refl _, Nat.le_refl _⟩

theorem Machine.Idled.trans {first second third : Machine} (before : first.Idled second)
    (after : second.Idled third) : first.Idled third :=
  ⟨after.memo.trans before.memo, after.calls.trans before.calls, Nat.le_trans before.clock after.clock,
    Nat.le_trans before.turns after.turns⟩

theorem Machine.turn_idled (schedule : Schedule) (machine : Machine) :
    machine.Idled (machine.turn schedule).2 := ⟨rfl, rfl, Nat.le_refl _, Nat.le_succ _⟩

theorem Machine.advanceTo_idled (time : Nat) (machine : Machine) :
    machine.Idled (machine.advanceTo time) := ⟨rfl, rfl, Nat.le_max_left _ _, Nat.le_refl _⟩

namespace Activity

-- One constructor for each thing that can happen, whether a pass would choose it now or not.
inductive Step (host : Host) (request : Request) : Activity → Machine → Activity → Machine → Prop
  | refuse (errand : Errand) (machine : Machine)
      (free : errand.isFetch = true → machine.memo.IsFree errand.task)
      (missing : host.registry.worker? errand.task = none) :
      Step host request (.pending errand) machine
        (.settled (.error (.taskNotFound errand.task))) (machine.reserve errand .vacant)
  -- The deadline counts from here, not from the first answer.
  | begin (errand : Errand) (worker : Worker) (machine : Machine)
      (free : errand.isFetch = true → machine.memo.IsFree errand.task)
      (found : host.registry.worker? errand.task = some worker) :
      Step host request (.pending errand) machine
        (.sleeping (some ⟨errand.task, machine.clock + host.timeout, errand.isFetch⟩) machine.clock
          (errand.plan request worker)) (machine.reserve errand .busy)
  | reuse (task : String) (table : Table) (machine : Machine)
      (filled : machine.memo.slot? task = some (.filled table)) :
      Step host request (.pending (.fetch task)) machine (.settled (.ok [table])) machine
  | wait (entry : Option Entry) (time delay : Nat) (rest : Plan) (machine : Machine)
      (awake : time ≤ machine.clock) :
      Step host request (.sleeping entry time (.wait delay rest)) machine
        (.sleeping entry (machine.clock + delay) rest) machine
  | ask (entry : Option Entry) (time : Nat) (query : Query) (next : query.Answer → Plan)
      (machine : Machine) (awake : time ≤ machine.clock) :
      Step host request (.sleeping entry time (.ask query next)) machine
        (.sleeping entry
          (machine.clock + (host.backends query (machine.callsTo query.backend)).1)
          (next (host.backends query (machine.callsTo query.backend)).2)) (machine.record query)
  | send (entry : Option Entry) (time : Nat) (errands : List Errand) (next : List Table → Plan)
      (machine : Machine) (awake : time ≤ machine.clock) :
      Step host request (.sleeping entry time (.send errands next)) machine
        (.joining entry (errands.map .pending) next) machine
  | finish (entry : Option Entry) (time : Nat) (outcome : Outcome) (machine : Machine)
      (awake : time ≤ machine.clock) :
      Step host request (.sleeping entry time (.done outcome)) machine
        (.settled outcome) (close entry outcome machine).2
  | proceed (entry : Option Entry) (results : List (List Table)) (next : List Table → Plan)
      (machine : Machine) :
      Step host request (.joining entry (results.map fun tables => .settled (.ok tables)) next) machine
        (.sleeping entry machine.clock (next results.flatten)) machine
  -- Any failure among the parts may be seen first; the other parts are dropped as they are.
  | abort (entry : Option Entry) (parts : List Activity) (next : List Table → Plan)
      (failure : Failure) (machine : Machine) (failed : .settled (.error failure) ∈ parts) :
      Step host request (.joining entry parts next) machine
        (.settled (.error failure)) (close entry (.error failure) (dropAll parts machine)).2
  | expire (activity : Activity) (entry : Entry) (machine : Machine)
      (running : activity.entry? = some entry) (late : entry.deadline ≤ machine.clock) :
      Step host request activity machine
        (.settled (.error (.timedOut entry.task host.timeout))) (activity.drop machine)
  | part (entry : Option Entry) (before after : List Activity) (next : List Table → Plan)
      {activity later : Activity} {machine machine' : Machine}
      (step : Step host request activity machine later machine') :
      Step host request (.joining entry (before ++ activity :: after) next) machine
        (.joining entry (before ++ later :: after) next) machine'

inductive Run (host : Host) (request : Request) :
    Nat → Activity → Machine → Activity → Machine → Prop
  | stay (activity : Activity) (machine : Machine) :
      Run host request 0 activity machine activity machine
  | idle {steps : Nat} {activity later : Activity} {machine between machine' : Machine}
      (idled : machine.Idled between) (rest : Run host request steps activity between later machine') :
      Run host request steps activity machine later machine'
  | step {steps : Nat} {activity next later : Activity} {machine between machine' : Machine}
      (first : Step host request activity machine next between)
      (rest : Run host request steps next between later machine') :
      Run host request (steps + 1) activity machine later machine'

variable {host : Host} {request : Request}

theorem Run.append {first second : Nat} {start middle later : Activity} {machine between after : Machine}
    (head : Run host request first start machine middle between)
    (tail : Run host request second middle between later after) :
    Run host request (second + first) start machine later after := by
  induction head with
  | stay => exact tail
  | idle idled _ ih => exact .idle idled (ih tail)
  | step here _ ih => exact .step here (ih tail)

theorem Run.idled {activity later : Activity} {machine after : Machine}
    (run : Run host request 0 activity machine later after) :
    later = activity ∧ machine.Idled after := by
  generalize none : 0 = steps at run
  induction run with
  | stay => exact ⟨rfl, .refl _⟩
  | idle idled _ ih => exact ⟨(ih none).1, idled.trans (ih none).2⟩
  | step => cases none

theorem Run.one {activity later : Activity} {machine after : Machine}
    (step : Step host request activity machine later after) :
    Run host request 1 activity machine later after := .step step (.stay _ _)

theorem Run.part {steps : Nat} {activity later : Activity} {machine machine' : Machine}
    (entry : Option Entry) (before after : List Activity) (next : List Table → Plan)
    (run : Run host request steps activity machine later machine') :
    Run host request steps (.joining entry (before ++ activity :: after) next) machine
      (.joining entry (before ++ later :: after) next) machine' := by
  induction run with
  | stay => exact .stay _ _
  | idle idled _ ih => exact .idle idled ih
  | step here _ ih => exact .step (.part entry before after next here) ih

end Activity

structure Machine.MemoOnly (before after : Machine) : Prop where
  clock : after.clock = before.clock
  calls : after.calls = before.calls
  turns : after.turns = before.turns

theorem Machine.MemoOnly.trans {first second third : Machine} (before : first.MemoOnly second)
    (after : second.MemoOnly third) : first.MemoOnly third :=
  ⟨after.clock.trans before.clock, after.calls.trans before.calls, after.turns.trans before.turns⟩

namespace Activity

theorem reserve_memoOnly (errand : Errand) (slot : Slot) (machine : Machine) :
    machine.MemoOnly (machine.reserve errand slot) := by
  rw [Machine.reserve]
  split <;> exact ⟨rfl, rfl, rfl⟩

theorem vacate_memoOnly (entry : Option Entry) (machine : Machine) :
    machine.MemoOnly (vacate entry machine) := by
  simp only [vacate]
  split <;> exact ⟨rfl, rfl, rfl⟩

theorem close_memoOnly (entry : Option Entry) (outcome : Outcome) (machine : Machine) :
    machine.MemoOnly (close entry outcome machine).2 := by
  simp only [close]
  split
  · exact ⟨rfl, rfl, rfl⟩
  · exact vacate_memoOnly entry machine

theorem close_activity (entry : Option Entry) (outcome : Outcome) (machine : Machine) :
    (close entry outcome machine).1 = .settled outcome := by
  simp only [close]
  split <;> rfl

mutual
theorem drop_memoOnly (activity : Activity) (machine : Machine) :
    machine.MemoOnly (drop activity machine) := by
  cases activity with
  | settled outcome => exact ⟨rfl, rfl, rfl⟩
  | pending errand => exact ⟨rfl, rfl, rfl⟩
  | sleeping entry time rest => exact vacate_memoOnly entry machine
  | joining entry parts next =>
      exact (dropAll_memoOnly parts machine).trans (vacate_memoOnly entry (dropAll parts machine))

theorem dropAll_memoOnly (parts : List Activity) (machine : Machine) :
    machine.MemoOnly (dropAll parts machine) := by
  cases parts with
  | nil => exact ⟨rfl, rfl, rfl⟩
  | cons first rest => exact (drop_memoOnly first machine).trans (dropAll_memoOnly rest (drop first machine))
end

theorem close_dropAll (entry : Option Entry) (parts : List Activity) (next : List Table → Plan)
    (failure : Failure) (machine : Machine) :
    (close entry (.error failure) (dropAll parts machine)).2 = drop (.joining entry parts next) machine := by
  rw [drop, close]
  rintro _ _ _ - ⟨⟩

variable {host : Host} {request : Request}

theorem Step.instant {activity later : Activity} {machine after : Machine}
    (step : Step host request activity machine later after) :
    after.clock = machine.clock ∧ after.turns = machine.turns := by
  induction step with
  | refuse errand machine =>
      exact ⟨(reserve_memoOnly errand .vacant machine).clock, (reserve_memoOnly errand .vacant machine).turns⟩
  | begin errand worker machine =>
      exact ⟨(reserve_memoOnly errand .busy machine).clock, (reserve_memoOnly errand .busy machine).turns⟩
  | reuse | wait | ask | send | proceed => exact ⟨rfl, rfl⟩
  | finish entry time outcome machine =>
      exact ⟨(close_memoOnly entry outcome machine).clock, (close_memoOnly entry outcome machine).turns⟩
  | abort entry parts next failure machine =>
      have dropped := drop_memoOnly (.joining entry parts next) machine
      rw [close_dropAll entry parts next failure machine]
      exact ⟨dropped.clock, dropped.turns⟩
  | expire activity entry machine =>
      exact ⟨(drop_memoOnly activity machine).clock, (drop_memoOnly activity machine).turns⟩
  | part _ _ _ _ _ ih => exact ih

theorem Run.later {steps : Nat} {activity later : Activity} {machine after : Machine}
    (run : Run host request steps activity machine later after) :
    machine.clock ≤ after.clock ∧ machine.turns ≤ after.turns := by
  induction run with
  | stay => exact ⟨Nat.le_refl _, Nat.le_refl _⟩
  | idle idled _ ih => exact ⟨Nat.le_trans idled.clock ih.1, Nat.le_trans idled.turns ih.2⟩
  | step first _ ih => exact ⟨first.instant.1 ▸ ih.1, first.instant.2 ▸ ih.2⟩

end Activity

end Curator
