import Curator.Proofs.Engine.Step
/-!
What a pass over an activity comes to: a run of steps. It is a run of no steps only if a turn was
missed in it or nothing in the activity was due.
-/

set_option autoImplicit false

namespace Curator

namespace Activity

def Waits (activity : Activity) : Prop := ∀ outcome, activity ≠ .settled outcome

theorem stands_somehow (activity : Activity) :
    (∃ tables, activity = .settled (.ok tables)) ∨ (∃ failure, activity = .settled (.error failure)) ∨
      activity.Waits := by
  cases activity with
  | settled outcome =>
      cases outcome with
      | ok tables => exact .inl ⟨tables, rfl⟩
      | error failure => exact .inr (.inl ⟨failure, rfl⟩)
  | pending errand => exact .inr (.inr fun outcome same => nomatch same)
  | sleeping entry time rest => exact .inr (.inr fun outcome same => nomatch same)
  | joining entry parts next => exact .inr (.inr fun outcome same => nomatch same)

theorem standing_waiting {first : Activity} (waits : first.Waits) (patient : Bool) (rest : List Activity) :
    standing patient (first :: rest) =
      if patient then .open
      else match standing patient rest with
        | .failed failure => .failed failure
        | _ => .open := by
  cases first with
  | settled outcome => exact absurd rfl (waits outcome)
  | pending errand => rfl
  | sleeping entry time rest => rfl
  | joining entry parts next => rfl

theorem standing_failed {patient : Bool} {parts : List Activity} {failure : Failure}
    (stands : standing patient parts = .failed failure) : .settled (.error failure) ∈ parts := by
  induction parts with
  | nil => cases stands
  | cons first rest ih =>
      rcases stands_somehow first with ⟨tables, rfl⟩ | ⟨failed, rfl⟩ | waits
      · cases inner : standing patient rest with
        | complete others => simp [standing, inner] at stands
        | «open» => simp [standing, inner] at stands
        | failed other =>
            simp only [standing, inner, Standing.failed.injEq] at stands
            exact List.mem_cons_of_mem _ (ih (stands ▸ inner))
      · cases stands
        exact List.mem_cons_self
      · rw [standing_waiting waits] at stands
        cases inner : standing patient rest with
        | complete others => simp [inner] at stands
        | «open» => simp [inner] at stands
        | failed other =>
            cases patient with
            | true => simp at stands
            | false =>
                simp only [inner, Bool.false_eq_true, if_false, Standing.failed.injEq] at stands
                exact List.mem_cons_of_mem _ (ih (stands ▸ inner))

theorem standing_complete {patient : Bool} {parts : List Activity} {tables : List Table}
    (stands : standing patient parts = .complete tables) :
    ∃ results : List (List Table), parts = (results.map fun tables => .settled (.ok tables)) ∧
      tables = results.flatten := by
  induction parts generalizing tables with
  | nil =>
      cases stands
      exact ⟨[], rfl, rfl⟩
  | cons first rest ih =>
      rcases stands_somehow first with ⟨head, rfl⟩ | ⟨failed, rfl⟩ | waits
      · cases inner : standing patient rest with
        | «open» => simp [standing, inner] at stands
        | failed other => simp [standing, inner] at stands
        | complete others =>
            obtain ⟨results, parts, flat⟩ := ih inner
            simp only [standing, inner, Standing.complete.injEq] at stands
            exact ⟨head :: results, by simp [parts], by simp [flat, ← stands]⟩
      · cases stands
      · rw [standing_waiting waits] at stands
        cases inner : standing patient rest <;> cases patient <;> simp [inner] at stands

theorem standing_open {patient : Bool} {parts : List Activity} (stands : standing patient parts = .open) :
    ∃ part ∈ parts, part.Waits := by
  induction parts with
  | nil => cases stands
  | cons first rest ih =>
      rcases stands_somehow first with ⟨head, rfl⟩ | ⟨failed, rfl⟩ | waits
      · cases inner : standing patient rest with
        | «open» =>
            obtain ⟨part, member, waits⟩ := ih inner
            exact ⟨part, List.mem_cons_of_mem _ member, waits⟩
        | failed other => simp [standing, inner] at stands
        | complete others => simp [standing, inner] at stands
      · cases stands
      · exact ⟨first, List.mem_cons_self, waits⟩

theorem standing_cons_failed {patient : Bool} {first : Activity} {rest : List Activity}
    {failure : Failure} (stands : standing patient rest = .failed failure)
    (passes : patient = true → ∃ tables, first = .settled (.ok tables)) :
    ∃ failure, standing patient (first :: rest) = .failed failure := by
  rcases stands_somehow first with ⟨tables, rfl⟩ | ⟨failed, rfl⟩ | waits
  · exact ⟨failure, by simp [standing, stands]⟩
  · exact ⟨failed, rfl⟩
  · cases patient with
    | true =>
        obtain ⟨tables, same⟩ := passes rfl
        exact absurd same (waits _)
    | false => exact ⟨failure, by rw [standing_waiting waits]; simp [stands]⟩

def Due (activity : Activity) (machine : Machine) : Prop :=
  ∃ time, activity.wakeTime machine = some time ∧ time ≤ machine.clock

-- What the next pass finds when the clock has moved to a time that was waited for.
def WakesBy (woken : Option Nat) (later : Option Nat) (clock : Nat) : Prop :=
  ∀ time, woken = some time → time ≤ clock → ∃ time', later = some time' ∧ time' ≤ clock

theorem wakesBy_earlier {first second first' second' : Option Nat} {clock : Nat}
    (left : WakesBy first first' clock) (right : WakesBy second second' clock) :
    WakesBy (earlier first second) (earlier first' second') clock := by
  intro time woken bound
  have either : (∃ one, first = some one ∧ one ≤ clock) ∨ (∃ two, second = some two ∧ two ≤ clock) := by
    cases first with
    | none =>
        cases second with
        | none => simp [earlier] at woken
        | some two => exact .inr ⟨two, rfl, by simp [earlier] at woken; omega⟩
    | some one =>
        cases second with
        | none => exact .inl ⟨one, rfl, by simp [earlier] at woken; omega⟩
        | some two =>
            simp only [earlier, Option.some.injEq] at woken
            by_cases ahead : one ≤ two
            · exact .inl ⟨one, rfl, by omega⟩
            · exact .inr ⟨two, rfl, by omega⟩
  rcases either with ⟨one, same, early⟩ | ⟨two, same, early⟩
  · obtain ⟨one', same', early'⟩ := left one same early
    cases second' with
    | none => exact ⟨one', by simp [earlier, same'], early'⟩
    | some two' => exact ⟨min one' two', by simp [earlier, same'], by omega⟩
  · obtain ⟨two', same', early'⟩ := right two same early
    cases first' with
    | none => exact ⟨two', by simp [earlier, same'], early'⟩
    | some one' => exact ⟨min one' two', by simp [earlier, same'], by omega⟩

mutual
theorem wakeTime_idled (activity : Activity) {machine after : Machine} (idled : machine.Idled after) :
    WakesBy (activity.wakeTime machine) (activity.wakeTime after) after.clock := by
  intro time woken bound
  cases activity with
  | settled outcome => cases woken
  | pending errand =>
      cases errand with
      | run task input => exact ⟨_, rfl, Nat.le_refl _⟩
      | process task => exact ⟨_, rfl, Nat.le_refl _⟩
      | fetch task =>
          by_cases busy : machine.memo.isBusy task = true
          · simp [wakeTime, busy] at woken
          · exact ⟨after.clock, by simp [wakeTime, idled.memo, busy], Nat.le_refl _⟩
  | sleeping entry until' rest => exact ⟨time, woken, bound⟩
  | joining entry parts next =>
      exact wakesBy_earlier (wakeTimeOfAny_idled parts idled) (fun late same early => ⟨late, same, early⟩)
        time woken bound

theorem wakeTimeOfAny_idled (parts : List Activity) {machine after : Machine}
    (idled : machine.Idled after) :
    WakesBy (wakeTimeOfAny machine parts) (wakeTimeOfAny after parts) after.clock := by
  cases parts with
  | nil => intro time woken; cases woken
  | cons first rest => exact wakesBy_earlier (wakeTime_idled first idled) (wakeTimeOfAny_idled rest idled)
end

theorem due_of_idled {activity : Activity} {machine after : Machine} (idled : machine.Idled after)
    (due : activity.Due machine) : activity.Due after := by
  obtain ⟨time, woken, bound⟩ := due
  exact wakeTime_idled activity idled time woken (Nat.le_trans bound idled.clock)

theorem due_of_advanceTo {activity : Activity} {machine : Machine} {time : Nat}
    (woken : activity.wakeTime machine = some time) : activity.Due (machine.advanceTo time) :=
  wakeTime_idled activity (machine.advanceTo_idled time) time woken (Nat.le_max_right _ _)

theorem not_due_of_parts {parts : List Activity} {machine : Machine} {time : Nat}
    (still : ∀ part ∈ parts, ¬ part.Due machine) (woken : wakeTimeOfAny machine parts = some time) :
    machine.clock < time := by
  induction parts generalizing time with
  | nil => cases woken
  | cons first rest ih =>
      have here := still first List.mem_cons_self
      have behind (late : Nat) (wakes : wakeTimeOfAny machine rest = some late) : machine.clock < late :=
        ih (fun part member => still part (List.mem_cons_of_mem _ member)) wakes
      rw [wakeTimeOfAny] at woken
      cases one : first.wakeTime machine with
      | none =>
          cases two : wakeTimeOfAny machine rest with
          | none => simp [one, two, earlier] at woken
          | some late =>
              simp only [one, two, earlier, Option.some.injEq] at woken
              exact woken ▸ behind late two
      | some early =>
          have future : machine.clock < early := Nat.lt_of_not_le fun bound => here ⟨early, one, bound⟩
          cases two : wakeTimeOfAny machine rest with
          | none =>
              simp only [one, two, earlier, Option.some.injEq] at woken
              exact woken ▸ future
          | some late =>
              have afterwards := behind late two
              simp only [one, two, earlier, Option.some.injEq] at woken
              omega

theorem deadline_of_earlier {inside : Option Nat} {entry : Option Entry} {clock time : Nat}
    (future : ∀ time, inside = some time → clock < time)
    (woken : earlier inside (entry.map Entry.deadline) = some time) :
    clock < time ∨ ∃ held, entry = some held ∧ held.deadline ≤ time := by
  cases inside with
  | none =>
      cases entry with
      | none => simp [earlier] at woken
      | some held => exact .inr ⟨held, rfl, by simp [earlier] at woken; omega⟩
  | some early =>
      have ahead := future early rfl
      cases entry with
      | none => exact .inl (by simp [earlier] at woken; omega)
      | some held =>
          simp only [Option.map_some, earlier, Option.some.injEq] at woken
          by_cases first : early ≤ held.deadline
          · exact .inl (by omega)
          · exact .inr ⟨held, rfl, by omega⟩

mutual
def height : Activity → Nat
  | settled _ => 0
  | pending _ => 1
  | sleeping _ _ _ => 1
  | joining _ parts _ => heightOfAll parts + 1

def heightOfAll : List Activity → Nat
  | [] => 0
  | first :: rest => max first.height (heightOfAll rest)
end

def Missed (host : Host) (machine after : Machine) : Prop :=
  machine.turns < host.schedule.unsettled ∧ machine.turns < after.turns

theorem Missed.widen {host : Host} {first second third fourth : Machine}
    (missed : Missed host second third) (before : first.turns ≤ second.turns)
    (after : third.turns ≤ fourth.turns) : Missed host first fourth :=
  ⟨Nat.lt_of_le_of_lt before missed.1,
    Nat.lt_of_le_of_lt before (Nat.lt_of_lt_of_le missed.2 after)⟩

-- Polling takes steps, unless a turn was missed or nothing was due.
def Polls (host : Host) (request : Request) (depth : Nat) (activity : Activity) (machine : Machine)
    (polled : Activity × Machine) : Prop :=
  ∃ steps, Run host request steps activity machine polled.1 polled.2 ∧
    (steps = 0 → activity.height ≤ depth → Missed host machine polled.2 ∨ ¬ activity.Due machine)

section Parts

variable {host : Host} {request : Request} {depth : Nat}
  {below : Activity → Machine → Activity × Machine}
  (polls : ∀ activity machine, Polls host request depth activity machine (below activity machine))
include polls

theorem pollInTurn_polls (activity : Activity) (machine : Machine) :
    Polls host request depth activity machine (pollInTurn host.schedule below activity machine) := by
  have given := machine.turn_idled host.schedule
  by_cases taken : host.schedule.takes machine.turns = true
  · have same : pollInTurn host.schedule below activity machine =
        below activity (machine.turn host.schedule).2 := by
      simp [pollInTurn, Machine.turn, taken]
    obtain ⟨steps, run, stuck⟩ := polls activity (machine.turn host.schedule).2
    rw [same]
    refine ⟨steps, .idle given run, ?_⟩
    intro none within
    rcases stuck none within with missed | idle
    · exact .inl (missed.widen given.turns (Nat.le_refl _))
    · exact .inr fun due => idle (due_of_idled given due)
  · have same : pollInTurn host.schedule below activity machine =
        (activity, (machine.turn host.schedule).2) := by
      simp [pollInTurn, Machine.turn, taken]
    rw [same]
    refine ⟨0, .idle given (.stay _ _), fun _ _ => .inl ⟨?_, Nat.lt_succ_self _⟩⟩
    exact Nat.lt_of_not_le fun settled => taken (host.schedule.takes_of_le _ settled)

theorem pollParts_runs (entry : Option Entry) (next : List Table → Plan) (patient : Bool)
    (parts : List Activity) (clear : Bool) (before : List Activity) (machine : Machine) :
    let polled := pollParts host.schedule below patient clear parts machine
    ∃ steps, Run host request steps (.joining entry (before ++ parts) next) machine
        (.joining entry (before ++ polled.1) next) polled.2 ∧
      (steps = 0 → heightOfAll parts ≤ depth →
        Missed host machine polled.2 ∨ (∀ part ∈ parts, ¬ part.Due machine) ∨
          ((patient = true → clear = true) ∧ ∃ failure, standing patient parts = .failed failure)) := by
  induction parts generalizing clear before machine with
  | nil => exact ⟨0, .stay _ _, fun _ _ => .inr (.inl fun part member => nomatch member)⟩
  | cons first rest ih =>
      obtain ⟨steps, run, stuck⟩ := pollInTurn_polls polls first machine
      simp only [pollParts]
      generalize pollInTurn host.schedule below first machine = polled at run stuck ⊢
      obtain ⟨first', between⟩ := polled
      simp only at run stuck ⊢
      -- What is left to do is done behind `first'`, and then the two runs are put together.
      have onward (clear' : Bool) :
          let polled := pollParts host.schedule below patient clear' rest between
          ∃ steps, Run host request steps (.joining entry (before ++ first :: rest) next) machine
              (.joining entry (before ++ first' :: polled.1) next) polled.2 ∧
            (steps = 0 → heightOfAll (first :: rest) ≤ depth → first' = first ∧
              (Missed host machine polled.2 ∨ (∀ part ∈ first :: rest, ¬ part.Due machine) ∨
                ((patient = true → clear' = true) ∧
                  ∃ failure, standing patient rest = .failed failure))) := by
        obtain ⟨others, behind, stuck'⟩ := ih clear' (before ++ [first']) between
        have here := run.part entry before rest next
        refine ⟨others + steps, ?_, fun none within => ?_⟩
        · simpa using here.append (by simpa using behind)
        · have none' : steps = 0 := by omega
          subst none'
          simp only [heightOfAll] at within
          obtain ⟨same, idled⟩ := run.idled
          refine ⟨same, ?_⟩
          have turned := behind.later.2
          rcases stuck rfl (by omega) with missed | idle
          · exact .inl (missed.widen (Nat.le_refl _) turned)
          · rcases stuck' (by omega) (by omega) with missed | still | failed
            · exact .inl (missed.widen idled.turns (Nat.le_refl _))
            · refine .inr (.inl ?_)
              intro part member due
              rcases List.mem_cons.mp member with equal | inner
              · exact idle (equal ▸ due)
              · exact still part inner (due_of_idled idled due)
            · exact .inr (.inr failed)
      rcases stands_somehow first' with ⟨tables, rfl⟩ | ⟨failure, rfl⟩ | waits
      · obtain ⟨steps', run', stuck'⟩ := onward clear
        refine ⟨steps', run', ?_⟩
        intro none within
        obtain ⟨rfl, missed | still | ⟨counts, failure, stands⟩⟩ := stuck' none within
        · exact .inl missed
        · exact .inr (.inl still)
        · exact .inr (.inr ⟨counts, standing_cons_failed stands fun _ => ⟨tables, rfl⟩⟩)
      · by_cases skips : (patient && !clear) = true
        · obtain ⟨steps', run', stuck'⟩ := onward false
          simp only [skips, if_true]
          refine ⟨steps', run', ?_⟩
          intro none within
          obtain ⟨-, missed | still | ⟨counts, -⟩⟩ := stuck' none within
          · exact .inl missed
          · exact .inr (.inl still)
          · simp only [Bool.and_eq_true] at skips
            cases counts skips.1
        · simp only [skips]
          refine ⟨steps, run.part entry before rest next, fun none _ => .inr (.inr ⟨?_, failure, ?_⟩)⟩
          · simpa using skips
          · subst none
            rw [← run.idled.1]
            rfl
      · obtain ⟨steps', run', stuck'⟩ := onward false
        cases first' with
        | settled outcome => exact absurd rfl (waits outcome)
        | pending | sleeping | joining =>
            refine ⟨steps', run', ?_⟩
            intro none within
            obtain ⟨same, missed | still | ⟨counts, failure, stands⟩⟩ := stuck' none within
            · exact .inl missed
            · exact .inr (.inl still)
            · have hasty : patient ≠ true := fun isPatient => Bool.noConfusion (counts isPatient)
              refine .inr (.inr ⟨fun isPatient => absurd isPatient hasty, ?_⟩)
              exact standing_cons_failed stands fun isPatient => absurd isPatient hasty

theorem pollJoin_runs (entry : Option Entry) (next : List Table → Plan) (parts : List Activity)
    (proceed : List Table → Machine → Activity × Machine)
    (onward : ∀ tables machine, ∃ steps, Run host request steps (.sleeping entry machine.clock (next tables))
      machine (proceed tables machine).1 (proceed tables machine).2) (machine : Machine) :
    let polled := pollJoin host.schedule below entry parts next proceed machine
    ∃ steps, Run host request steps (.joining entry parts next) machine polled.1 polled.2 ∧
      (steps = 0 → heightOfAll parts ≤ depth →
        Missed host machine polled.2 ∨ ∀ part ∈ parts, ¬ part.Due machine) := by
  obtain ⟨steps, run, stuck⟩ :=
    pollParts_runs polls entry next (decide (widest < parts.length)) parts true [] machine
  simp only [pollJoin]
  generalize pollParts host.schedule below (decide (widest < parts.length)) true parts machine = polled
    at run stuck ⊢
  obtain ⟨parts', between⟩ := polled
  simp only [List.nil_append] at run stuck ⊢
  cases stands : standing (decide (widest < parts.length)) parts' with
  | «open» =>
      refine ⟨steps, run, ?_⟩
      intro none within
      subst none
      obtain ⟨same, -⟩ := run.idled
      cases same
      rcases stuck rfl within with missed | still | ⟨-, failure, failed⟩
      · exact .inl missed
      · exact .inr still
      · cases stands.symm.trans failed
  | failed failure =>
      have step : Step host request (.joining entry parts' next) between _ _ :=
        .abort entry parts' next failure between (standing_failed stands)
      refine ⟨1 + steps, ?_, fun none => absurd none (by omega)⟩
      simpa only [close_activity] using run.append (.one step)
  | complete tables =>
      obtain ⟨results, all, flat⟩ := standing_complete stands
      obtain ⟨others, rest⟩ := onward tables between
      have step : Step host request _ between _ between := .proceed entry results next between
      rw [← all, ← flat] at step
      exact ⟨others + 1 + steps, run.append (.step step rest), fun none => absurd none (by omega)⟩

theorem follow_runs (entry : Option Entry) (plan : Plan) (time : Nat) (machine : Machine)
    (awake : time ≤ machine.clock) :
    let followed := follow host below entry plan machine
    ∃ steps, Run host request (steps + 1) (.sleeping entry time plan) machine followed.1 followed.2 := by
  induction plan generalizing time machine with
  | done outcome =>
      refine ⟨0, ?_⟩
      have step : Step host request (.sleeping entry time (.done outcome)) machine _ _ :=
        .finish entry time outcome machine awake
      simpa only [follow, close_activity] using Run.one step
  | wait delay rest ih =>
      -- What takes no time is followed up within the same pass.
      have step : Step host request (.sleeping entry time (.wait delay rest)) machine _ _ :=
        .wait entry time delay rest machine awake
      by_cases atOnce : delay = 0
      · obtain ⟨steps, run⟩ := ih (machine.clock + delay) machine (by omega)
        simp only [follow, if_pos atOnce]
        exact ⟨steps + 1, .step step run⟩
      · simp only [follow, if_neg atOnce]
        exact ⟨0, .one step⟩
  | ask query next ih =>
      have step : Step host request (.sleeping entry time (.ask query next)) machine _ _ :=
        .ask entry time query next machine awake
      let reply := host.backends query (machine.callsTo query.backend)
      by_cases atOnce : reply.1 = 0
      · have same : follow host below entry (.ask query next) machine =
            follow host below entry (next reply.2) (machine.record query) := if_pos atOnce
        obtain ⟨steps, run⟩ := ih reply.2 (machine.clock + reply.1) (machine.record query)
          (Nat.le_of_eq (by rw [atOnce]; rfl))
        rw [same]
        exact ⟨steps + 1, .step step run⟩
      · have same : follow host below entry (.ask query next) machine =
            (.sleeping entry (machine.clock + reply.1) (next reply.2), machine.record query) :=
          if_neg atOnce
        rw [same]
        exact ⟨0, .one step⟩
  | send errands next ih =>
      have step : Step host request (.sleeping entry time (.send errands next)) machine _ _ :=
        .send entry time errands next machine awake
      have onward (tables : List Table) (machine : Machine) :
          ∃ steps, Run host request steps (.sleeping entry machine.clock (next tables)) machine
            (follow host below entry (next tables) machine).1
            (follow host below entry (next tables) machine).2 := by
        obtain ⟨steps, run⟩ := ih tables machine.clock machine (Nat.le_refl _)
        exact ⟨steps + 1, run⟩
      obtain ⟨steps, run, -⟩ := pollJoin_runs polls entry next (errands.map .pending)
        (fun tables machine => follow host below entry (next tables) machine) onward machine
      exact ⟨steps, .step step run⟩

theorem engage_runs (errand : Errand) (machine : Machine)
    (free : errand.isFetch = true → machine.memo.IsFree errand.task) :
    let engaged := engage host request below errand machine
    ∃ steps, Run host request (steps + 1) (.pending errand) machine engaged.1 engaged.2 := by
  rw [engage]
  cases found : host.registry.worker? errand.task with
  | none => exact ⟨0, .one (.refuse errand machine free found)⟩
  | some worker =>
      have same := (reserve_memoOnly errand .busy machine).clock
      obtain ⟨steps, run⟩ := follow_runs polls
        (some ⟨errand.task, machine.clock + host.timeout, errand.isFetch⟩) (errand.plan request worker)
        machine.clock (machine.reserve errand .busy) (Nat.le_of_eq same.symm)
      exact ⟨steps + 1, .step (.begin errand worker machine free found) run⟩

theorem start_runs (errand : Errand) (machine : Machine) :
    let started := start host request below errand machine
    ∃ steps, Run host request steps (.pending errand) machine started.1 started.2 ∧
      (steps = 0 → ¬ Due (.pending errand) machine) := by
  have engaged (free : errand.isFetch = true → machine.memo.IsFree errand.task) :
      let engaged := engage host request below errand machine
      ∃ steps, Run host request steps (.pending errand) machine engaged.1 engaged.2 ∧
        (steps = 0 → ¬ Due (.pending errand) machine) := by
    obtain ⟨steps, run⟩ := engage_runs polls errand machine free
    exact ⟨steps + 1, run, fun none => nomatch none⟩
  cases errand with
  | run task input => exact engaged fun fetches => nomatch fetches
  | process task => exact engaged fun fetches => nomatch fetches
  | fetch task =>
      simp only [start]
      cases slot : machine.memo.slot? task with
      | none => exact engaged fun _ => .inl slot
      | some state =>
          cases state with
          | vacant => exact engaged fun _ => .inr slot
          | busy =>
              -- No step, but nothing is due before somebody else has produced the table.
              refine ⟨0, .stay _ _, ?_⟩
              intro _
              rintro ⟨time, woken, -⟩
              simp [wakeTime, Memo.isBusy, slot] at woken
          | filled table => exact ⟨1, .one (.reuse task table machine slot), fun none => nomatch none⟩

omit polls in
theorem expire_polls {activity later : Activity} {machine between : Machine} {steps : Nat}
    (run : Run host request steps activity machine later between)
    (stuck : steps = 0 → activity.height ≤ depth → Missed host machine between ∨
      ∀ time, activity.wakeTime machine = some time →
        machine.clock < time ∨ ∃ entry, activity.entry? = some entry ∧ entry.deadline ≤ time) :
    Polls host request depth activity machine (expire host.timeout later between) := by
  -- Without steps, what is left is what was there, and it goes on before any deadline.
  have unexpired (early : ∀ entry, later.entry? = some entry → between.clock < entry.deadline) :
      Polls host request depth activity machine (later, between) := by
    refine ⟨steps, run, ?_⟩
    intro none within
    subst none
    obtain ⟨same, idled⟩ := run.idled
    subst same
    rcases stuck rfl within with missed | sleeps
    · exact .inl missed
    · refine .inr fun ⟨time, woken, bound⟩ => ?_
      have passed := idled.clock
      rcases sleeps time woken with future | ⟨entry, holds, reached⟩
      · omega
      · have ahead := early entry holds
        omega
  rw [expire]
  cases running : later.entry? with
  | none =>
      apply unexpired
      intro entry holds
      simp [running] at holds
  | some entry =>
      by_cases late : entry.deadline ≤ between.clock
      · simp only [if_pos late]
        exact ⟨1 + steps, run.append (.one (.expire later entry between running late)),
          fun none => absurd none (by omega)⟩
      · simp only [if_neg late]
        apply unexpired
        intro entry' holds
        cases Option.some.inj (running.symm.trans holds)
        omega

end Parts

theorem poll_polls (host : Host) (request : Request) (depth : Nat) (activity : Activity) (machine : Machine) :
    Polls host request depth activity machine (poll host request depth activity machine) := by
  induction depth generalizing activity machine with
  | zero =>
      -- Nothing is polled at depth zero, and whatever can go on lies deeper.
      refine ⟨0, .stay _ _, fun _ within => .inr ?_⟩
      cases activity with
      | settled outcome => exact fun ⟨_, woken, _⟩ => nomatch woken
      | pending | sleeping | joining => simp [height] at within
  | succ depth below =>
      cases activity with
      | settled outcome =>
          exact expire_polls (.stay _ _) fun _ _ => .inr fun time woken => nomatch woken
      | pending errand =>
          obtain ⟨steps, run, stuck⟩ := start_runs below errand machine
          refine expire_polls run fun none _ => .inr fun time woken => .inl ?_
          exact Nat.lt_of_not_le fun bound => stuck none ⟨time, woken, bound⟩
      | sleeping entry time rest =>
          by_cases awake : time ≤ machine.clock
          · obtain ⟨steps, run⟩ := follow_runs below entry rest time machine awake
            have same : poll host request (depth + 1) (.sleeping entry time rest) machine =
                expire host.timeout (follow host (poll host request depth) entry rest machine).1
                  (follow host (poll host request depth) entry rest machine).2 := by
              simp only [poll, if_pos awake]
            rw [same]
            exact expire_polls run fun none _ => nomatch none
          · have same : poll host request (depth + 1) (.sleeping entry time rest) machine =
                expire host.timeout (.sleeping entry time rest) machine := by
              simp only [poll, if_neg awake]
            rw [same]
            refine expire_polls (.stay _ _) fun _ _ => .inr ?_
            intro woken wakes
            exact deadline_of_earlier (fun later same => by cases same; omega) wakes
      | joining entry parts next =>
          obtain ⟨steps, run, stuck⟩ := pollJoin_runs below entry next parts
            (fun tables machine => follow host (poll host request depth) entry (next tables) machine)
            (fun tables machine => by
              obtain ⟨steps, run⟩ := follow_runs below entry (next tables) machine.clock machine (Nat.le_refl _)
              exact ⟨steps + 1, run⟩) machine
          refine expire_polls run ?_
          intro none within
          rcases stuck none (by simpa [height] using within) with missed | still
          · exact .inl missed
          · exact .inr fun time woken =>
              deadline_of_earlier (fun late same => not_due_of_parts still same) woken

end Activity

end Curator
