import Curator.Proofs.Engine.Pass
import Curator.Proofs.Engine.Work
import Mathlib.Tactic.Ring
/-!
Driving comes to an end. What a plan can still do is bounded: tasks rank above what they depend on,
and every step spends some of what is left. A pass takes a step or misses one of finitely many
turns, and nobody is left waiting for a table that nobody produces.
-/

set_option autoImplicit false

namespace Curator

namespace Host

def allowance (host : Host) (level : Nat) : Nat := (host.breadth + 5) ^ (level + 1)

theorem allowance_pos (host : Host) (level : Nat) : 0 < host.allowance level :=
  Nat.pow_pos (by omega)

theorem le_foldl_max {values : List Nat} {start value : Nat} (bound : value ≤ start ∨ value ∈ values) :
    value ≤ values.foldl max start := by
  induction values generalizing start with
  | nil => simpa using bound
  | cons head tail ih =>
      apply ih
      rcases bound with under | member
      · exact .inl (by omega)
      · rcases List.mem_cons.mp member with same | behind
        · exact .inl (by omega)
        · exact .inr behind

theorem dependencies_le_breadth (host : Host) {task : Task} (member : task ∈ host.registry.graph.tasks) :
    task.dependencies.length ≤ host.breadth :=
  le_foldl_max (.inr (List.mem_map.mpr ⟨task, member, rfl⟩))

theorem plan_lt_allowance (host : Host) {task : Task} (member : task ∈ host.registry.graph.tasks)
    (level : Nat) :
    task.dependencies.length * (host.allowance level + 2) + 3 < host.allowance (level + 1) := by
  have few := host.dependencies_le_breadth member
  have enough : host.breadth + 5 ≤ host.allowance level := Nat.le_self_pow (by omega) _
  have whole : host.allowance (level + 1) = host.allowance level * (host.breadth + 5) := Nat.pow_succ ..
  -- Every dependency takes one share of the next level, and the five to spare cover the rest.
  calc task.dependencies.length * (host.allowance level + 2) + 3
      ≤ host.breadth * (host.allowance level + 2) + 3 :=
        Nat.add_le_add_right (Nat.mul_le_mul_right _ few) 3
    _ = host.allowance level * host.breadth + (2 * host.breadth + 3) := by ring
    _ < host.allowance level * host.breadth + 5 * host.allowance level := by omega
    _ = host.allowance (level + 1) := by rw [whole]; ring

end Host

-- Fewer tasks than the level lie below everything that the plan sends for, and it takes no more
-- than so many steps.
def Plan.Within (host : Host) (level : Nat) (plan : Plan) (total : Nat) : Prop :=
  plan.Keeps ⟨fun errand => rank host.registry.graph.tasks errand.task < level, fun _ => True, fun _ => True⟩ ∧
    plan.Spends (host.allowance level) total

namespace Activity

def Tended : Activity → Prop
  | settled _ | pending _ => True
  | sleeping entry _ _ => entry.isSome = true
  | joining entry _ _ => entry.isSome = true

mutual
def Within (host : Host) : Nat → Activity → Nat → Prop
  | _, settled _, _ => True
  | level, pending errand, total =>
      rank host.registry.graph.tasks errand.task < level ∧ host.allowance level ≤ total
  | 0, sleeping _ _ _, _ => False
  | level + 1, sleeping _ _ rest, total => rest.Within host level total
  | 0, joining _ _ _, _ => False
  | level + 1, joining _ parts next, total =>
      ∃ below less, AllWithin host level parts below ∧ (∀ tables, (next tables).Within host level less) ∧
        below + less < total

def AllWithin (host : Host) : Nat → List Activity → Nat → Prop
  | _, [], _ => True
  | level, first :: rest, total =>
      ∃ here behind, first.Tended ∧ Within host level first here ∧ AllWithin host level rest behind ∧
        here + behind ≤ total
end

variable {host : Host} {request : Request} {level : Nat}

theorem allWithin_pending {errands : List Errand}
    (below : ∀ errand ∈ errands, rank host.registry.graph.tasks errand.task < level) :
    AllWithin host level (errands.map .pending) (errands.length * host.allowance level) := by
  induction errands with
  | nil => trivial
  | cons first rest ih =>
      refine ⟨host.allowance level, rest.length * host.allowance level, trivial,
        ⟨below first List.mem_cons_self, Nat.le_refl _⟩,
        ih fun errand member => below errand (List.mem_cons_of_mem _ member), ?_⟩
      simp only [List.length_cons, Nat.add_mul]
      omega

theorem allWithin_split {before after : List Activity} {activity : Activity} {total : Nat}
    (all : AllWithin host level (before ++ activity :: after) total) :
    ∃ here others, activity.Tended ∧ activity.Within host level here ∧ here + others ≤ total ∧
      ∀ later less, later.Tended → later.Within host level less →
        AllWithin host level (before ++ later :: after) (less + others) := by
  induction before generalizing total with
  | nil =>
      obtain ⟨here, behind, tended, within, rest, bound⟩ := all
      exact ⟨here, behind, tended, within, bound, fun later less tended' within' =>
        ⟨less, behind, tended', within', rest, Nat.le_refl _⟩⟩
  | cons first before ih =>
      obtain ⟨own, behind, tended, within, rest, bound⟩ := all
      obtain ⟨here, others, tended', within', bound', replace⟩ := ih rest
      refine ⟨here, own + others, tended', within', by omega, ?_⟩
      intro later less lateTended lateWithin
      exact ⟨own, less + others, tended, within, replace later less lateTended lateWithin, by omega⟩

theorem Step.tended {activity later : Activity} {machine after : Machine}
    (step : Step host request activity machine later after) (tended : activity.Tended) : later.Tended := by
  cases step with
  | refuse | reuse | finish | abort | expire => trivial
  | begin => rfl
  | wait | ask | send | proceed | part => exact tended

theorem Within.pos {activity : Activity} {total : Nat} (within : activity.Within host level total)
    (waits : activity.Waits) : 0 < total := by
  cases activity with
  | settled outcome => exact absurd rfl (waits outcome)
  | pending errand => exact Nat.lt_of_lt_of_le (host.allowance_pos level) within.2
  | sleeping entry time rest =>
      cases level with
      | zero => cases within
      | succ level =>
          have spends := within.2
          cases rest with
          | done outcome => exact spends
          | wait delay rest => obtain ⟨less, under, -⟩ := spends; omega
          | ask query next => obtain ⟨less, under, -⟩ := spends; omega
          | send errands next => obtain ⟨less, under, -⟩ := spends; omega
  | joining entry parts next =>
      cases level with
      | zero => cases within
      | succ level => obtain ⟨below, less, -, -, bound⟩ := within; omega

theorem Step.within (staffed : host.registry.Staffed) {activity later : Activity}
    {machine after : Machine} {total : Nat} (step : Step host request activity machine later after)
    (within : activity.Within host level total) : ∃ less, less < total ∧ later.Within host level less := by
  induction step generalizing level total with
  | refuse errand machine => exact ⟨0, within.pos fun _ same => (nomatch same), trivial⟩
  | begin errand worker machine free found =>
      obtain ⟨task, here, serves⟩ := staffed.serves errand.task worker found
      obtain ⟨below, enough⟩ := within
      cases level with
      | zero => cases below
      | succ level =>
          -- The plan's errands rank below the task, so they fit one level further down.
          refine ⟨_, Nat.lt_of_lt_of_le (host.plan_lt_allowance (Task.mem_of_find? here) level) enough, ?_,
            Errand.plan_spends serves request errand (host.allowance level)⟩
          exact (staffed.plan_descends request found).mono
            (fun sent under => Nat.lt_of_lt_of_le under (Nat.le_of_lt_succ below))
            (fun _ _ => trivial) (fun _ _ => trivial)
  | reuse task table machine => exact ⟨0, within.pos fun _ same => (nomatch same), trivial⟩
  | wait entry time delay rest machine awake =>
      cases level with
      | zero => cases within
      | succ level =>
          obtain ⟨keeps, less, under, spends⟩ := within
          exact ⟨less, under, keeps, spends⟩
  | ask entry time query next machine awake =>
      cases level with
      | zero => cases within
      | succ level =>
          obtain ⟨keeps, less, under, spends⟩ := within
          exact ⟨less, under, keeps.2 _, spends _⟩
  | send entry time errands next machine awake =>
      cases level with
      | zero => cases within
      | succ level =>
          obtain ⟨keeps, less, under, spends⟩ := within
          -- What the errands may take is set aside for them before any of them is begun.
          refine ⟨errands.length * host.allowance level + less + 1, by omega, _, less,
            allWithin_pending keeps.1, fun tables => ⟨keeps.2 tables, spends tables⟩, by omega⟩
  | finish entry time outcome machine => exact ⟨0, within.pos fun _ same => (nomatch same), trivial⟩
  | proceed entry results next machine =>
      cases level with
      | zero => cases within
      | succ level =>
          obtain ⟨below, less, -, rest, bound⟩ := within
          exact ⟨less, by omega, rest _⟩
  | abort entry parts next failure machine =>
      exact ⟨0, within.pos fun _ same => (nomatch same), trivial⟩
  | expire activity entry machine running due =>
      refine ⟨0, within.pos ?_, trivial⟩
      intro outcome same
      cases same
      cases running
  | part entry before after next step ih =>
      cases level with
      | zero => cases within
      | succ level =>
          obtain ⟨below, less, all, rest, bound⟩ := within
          obtain ⟨here, others, tended, inner, within', replace⟩ := allWithin_split all
          obtain ⟨smaller, under, later⟩ := ih inner
          exact ⟨smaller + others + less + 1, by omega, smaller + others, less,
            replace _ _ (step.tended tended) later, rest, by omega⟩

theorem Run.within (staffed : host.registry.Staffed) {steps : Nat} {activity later : Activity}
    {machine after : Machine} (run : Run host request steps activity machine later after) {total : Nat}
    (within : activity.Within host level total) :
    ∃ less, less + steps ≤ total ∧ later.Within host level less := by
  induction run generalizing total with
  | stay => exact ⟨total, Nat.le_refl _, within⟩
  | idle idled rest ih => exact ih within
  | step first rest ih =>
      obtain ⟨less, under, here⟩ := first.within staffed within
      obtain ⟨least, bound, there⟩ := ih here
      exact ⟨least, by omega, there⟩

mutual
theorem height_le_of_within {level : Nat} {activity : Activity} {total : Nat}
    (within : activity.Within host level total) : activity.height ≤ level := by
  cases activity with
  | settled outcome => exact Nat.zero_le _
  | pending errand => exact Nat.lt_of_le_of_lt (Nat.zero_le _) within.1
  | sleeping entry time rest =>
      cases level with
      | zero => cases within
      | succ level => exact Nat.le_add_left 1 level
  | joining entry parts next =>
      cases level with
      | zero => cases within
      | succ level =>
          obtain ⟨below, less, all, -, -⟩ := within
          exact Nat.succ_le_succ (heightOfAll_le_of_allWithin all)

theorem heightOfAll_le_of_allWithin {level : Nat} {parts : List Activity} {total : Nat}
    (all : AllWithin host level parts total) : heightOfAll parts ≤ level := by
  cases parts with
  | nil => exact Nat.zero_le _
  | cons first rest =>
      obtain ⟨here, behind, -, within, others, -⟩ := all
      exact Nat.max_le.mpr ⟨height_le_of_within within, heightOfAll_le_of_allWithin others⟩
end

def Live (activity : Activity) : Prop :=
  ∀ entry parts next, activity = .joining entry parts next → ∃ part ∈ parts, part.Waits

theorem live_settled (outcome : Outcome) : Live (.settled outcome) := by
  intro entry parts next same
  cases same

theorem live_pending (errand : Errand) : Live (.pending errand) := by
  intro entry parts next same
  cases same

theorem live_sleeping (entry : Option Entry) (time : Nat) (rest : Plan) : Live (.sleeping entry time rest) := by
  intro entry' parts next same
  cases same

theorem close_live (entry : Option Entry) (outcome : Outcome) (machine : Machine) :
    (close entry outcome machine).1.Live := by
  rw [close_activity]
  exact live_settled outcome

theorem pollJoin_live {below : Activity → Machine → Activity × Machine} {entry : Option Entry}
    {parts : List Activity} {next : List Table → Plan}
    {proceed : List Table → Machine → Activity × Machine}
    (onward : ∀ tables machine, (proceed tables machine).1.Live) (machine : Machine) :
    (pollJoin host.schedule below entry parts next proceed machine).1.Live := by
  simp only [pollJoin]
  generalize pollParts host.schedule below (decide (widest < parts.length)) true parts machine = polled
  cases stands : standing (decide (widest < parts.length)) polled.1 with
  | «open» =>
      intro entry' parts' next' same
      cases same
      exact standing_open stands
  | failed failure => exact close_live entry _ _
  | complete tables => exact onward tables polled.2

theorem follow_live {below : Activity → Machine → Activity × Machine} (entry : Option Entry) (plan : Plan)
    (machine : Machine) : (follow host below entry plan machine).1.Live := by
  induction plan generalizing machine with
  | done outcome => exact close_live entry outcome machine
  | wait delay rest ih =>
      rw [follow]
      split
      · exact ih machine
      · exact live_sleeping _ _ _
  | ask query next ih =>
      simp only [follow]
      split
      · exact ih _ _
      · exact live_sleeping _ _ _
  | send errands next ih => exact pollJoin_live ih machine

theorem start_live {below : Activity → Machine → Activity × Machine} (errand : Errand) (machine : Machine) :
    (start host request below errand machine).1.Live := by
  have engaged : (engage host request below errand machine).1.Live := by
    rw [engage]
    split
    · exact live_settled _
    · exact follow_live _ _ _
  cases errand with
  | run task input => exact engaged
  | process task => exact engaged
  | fetch task =>
      simp only [start]
      split
      · exact live_settled _
      · exact live_pending _
      · exact engaged

theorem poll_live (depth : Nat) (activity : Activity) (machine : Machine) :
    (poll host request (depth + 1) activity machine).1.Live := by
  have expired {polled : Activity} (live : polled.Live) (machine : Machine) :
      (expire host.timeout polled machine).1.Live := by
    rw [expire]
    split
    · exact live
    · split
      · exact live_settled _
      · exact live
  apply expired
  cases activity with
  | settled outcome => exact live_settled outcome
  | pending errand => exact start_live errand machine
  | sleeping entry time rest =>
      dsimp only
      split
      · exact follow_live _ _ _
      · exact live_sleeping _ _ _
  | joining entry parts next => exact pollJoin_live (fun tables machine => follow_live _ _ _) machine

theorem idle_of_wakeTime {activity : Activity} {machine : Machine} (tended : activity.Tended)
    (sleeps : activity.wakeTime machine = none) :
    (∃ outcome, activity = .settled outcome) ∨
      ∃ task, activity = .pending (.fetch task) ∧ machine.memo.isBusy task = true := by
  cases activity with
  | settled outcome => exact .inl ⟨outcome, rfl⟩
  | pending errand =>
      cases errand with
      | run task input => cases sleeps
      | process task => cases sleeps
      | fetch task =>
          by_cases busy : machine.memo.isBusy task = true
          · exact .inr ⟨task, rfl, busy⟩
          · simp [wakeTime, busy] at sleeps
  | sleeping entry time rest => cases entry <;> simp [wakeTime, earlier] at sleeps
  | joining entry parts next =>
      obtain ⟨held, rfl⟩ := Option.isSome_iff_exists.mp tended
      cases inside : wakeTimeOfAny machine parts <;> simp [wakeTime, inside, earlier] at sleeps

theorem wakeTimeOfAny_eq_none {parts : List Activity} {machine : Machine}
    (sleeps : wakeTimeOfAny machine parts = none) : ∀ part ∈ parts, part.wakeTime machine = none := by
  induction parts with
  | nil => simp
  | cons first rest ih =>
      rw [wakeTimeOfAny] at sleeps
      cases here : first.wakeTime machine <;> cases behind : wakeTimeOfAny machine rest <;>
        simp only [here, behind, earlier, reduceCtorEq] at sleeps
      intro part member
      rcases List.mem_cons.mp member with same | later
      · exact same ▸ here
      · exact ih behind part later

theorem tended_of_allWithin {parts : List Activity} {total : Nat} (all : AllWithin host level parts total) :
    ∀ part ∈ parts, part.Tended := by
  induction parts generalizing total with
  | nil => simp
  | cons first rest ih =>
      obtain ⟨here, behind, tended, -, others, -⟩ := all
      intro part member
      rcases List.mem_cons.mp member with same | later
      · exact same ▸ tended
      · exact ih others part later

theorem wakes {activity : Activity} {machine : Machine} {total : Nat} (accounted : activity.Accounted machine)
    (within : activity.Within host level total) (live : activity.Live) (waits : activity.Waits) :
    ∃ time, activity.wakeTime machine = some time := by
  apply Classical.byContradiction
  intro never
  have sleeps : activity.wakeTime machine = none := Option.eq_none_iff_forall_ne_some.mpr fun time woken =>
    never ⟨time, woken⟩
  -- Nobody holds a slot, so that no table can be waited for.
  have nobody (idle : activity.holdings = []) (task : String) : machine.memo.isBusy task ≠ true := by
    intro busy
    have owed := accounted task
    simp [idle, Machine.owned, busy] at owed
  cases activity with
  | settled outcome => exact waits outcome rfl
  | pending errand =>
      have tended : Tended (.pending errand) := trivial
      rcases idle_of_wakeTime tended sleeps with ⟨outcome, same⟩ | ⟨task, -, busy⟩
      · cases same
      · exact nobody rfl task busy
  | sleeping entry time rest => cases entry <;> simp [wakeTime, earlier] at sleeps
  | joining entry parts next =>
      cases level with
      | zero => cases within
      | succ level =>
          obtain ⟨below, less, all, -, -⟩ := within
          have inside : wakeTimeOfAny machine parts = none := by
            cases inner : wakeTimeOfAny machine parts with
            | none => rfl
            | some time => cases entry <;> simp [wakeTime, inner, earlier] at sleeps
          have untimed : entry = none := by
            cases entry with
            | none => rfl
            | some held => simp [wakeTime, inside, earlier] at sleeps
          subst untimed
          -- Every part has settled or waits itself, and none of them is to fill a slot.
          have stuck (part : Activity) (member : part ∈ parts) :=
            idle_of_wakeTime (tended_of_allWithin all part member) (wakeTimeOfAny_eq_none inside part member)
          have idle : holdings (.joining none parts next) = [] := by
            refine holdingsOfAll_of_idle ?_
            intro part member
            rcases stuck part member with ⟨outcome, rfl⟩ | ⟨task, rfl, -⟩ <;> rfl
          obtain ⟨part, member, pending⟩ := live none parts next rfl
          rcases stuck part member with ⟨outcome, same⟩ | ⟨task, -, busy⟩
          · exact pending outcome same
          · exact nobody idle task busy

theorem settled_of_not_waits {activity : Activity} (done : ¬ activity.Waits) :
    ∃ outcome, activity = .settled outcome := by
  simpa [Waits] using done

section Drive

variable {fuel : Nat} {activity later : Activity} {machine between : Machine}
  (polled : poll host request host.depth activity machine = (later, between))
include polled

theorem drive_settled {outcome : Outcome} (settled : later = .settled outcome) :
    drive host request (fuel + 1) activity machine = (some outcome, between) := by
  subst settled
  simp only [drive, polled]

theorem drive_asleep (waits : later.Waits) (sleeps : later.wakeTime between = none) :
    drive host request (fuel + 1) activity machine = (none, between) := by
  cases later with
  | settled outcome => exact absurd rfl (waits outcome)
  | pending | sleeping | joining => simp only [drive, polled, sleeps]

theorem drive_woken (waits : later.Waits) {time : Nat} (woken : later.wakeTime between = some time) :
    drive host request (fuel + 1) activity machine =
      drive host request fuel later (between.advanceTo time) := by
  cases later with
  | settled outcome => exact absurd rfl (waits outcome)
  | pending | sleeping | joining => simp only [drive, polled, woken]

end Drive

theorem drive_runs (fuel : Nat) (activity : Activity) (machine : Machine) :
    ∃ steps later, Run host request steps activity machine later
        (drive host request fuel activity machine).2 ∧
      ∀ outcome, (drive host request fuel activity machine).1 = some outcome → later = .settled outcome := by
  induction fuel generalizing activity machine with
  | zero => exact ⟨0, activity, .stay _ _, by rintro _ ⟨⟩⟩
  | succ fuel ih =>
      obtain ⟨steps, run, -⟩ := poll_polls host request host.depth activity machine
      obtain ⟨⟨later, between⟩, polled⟩ : ∃ polled, poll host request host.depth activity machine = polled :=
        ⟨_, rfl⟩
      rw [polled] at run
      by_cases waits : later.Waits
      · cases woken : later.wakeTime between with
        | none =>
            rw [drive_asleep polled waits woken]
            exact ⟨steps, later, run, by rintro _ ⟨⟩⟩
        | some time =>
            rw [drive_woken polled waits woken]
            obtain ⟨more, last, rest, settles⟩ := ih later (between.advanceTo time)
            exact ⟨more + steps, last, run.append (.idle (between.advanceTo_idled time) rest), settles⟩
      · obtain ⟨outcome, settled⟩ := settled_of_not_waits waits
        rw [drive_settled polled settled]
        exact ⟨steps, later, run, by rintro _ ⟨⟩; exact settled⟩

theorem drive_settles (staffed : host.registry.Staffed) (fuel : Nat) {activity : Activity} {machine : Machine}
    {total : Nat} (within : activity.Within host host.depth total) (accounted : activity.Accounted machine)
    (due : activity.Due machine) (enough : total + (host.schedule.unsettled - machine.turns) < fuel) :
    ∃ outcome, (drive host request fuel activity machine).1 = some outcome := by
  induction fuel generalizing activity machine total with
  | zero => omega
  | succ fuel ih =>
      obtain ⟨steps, run, stuck⟩ := poll_polls host request host.depth activity machine
      have live : (poll host request host.depth activity machine).1.Live := poll_live _ activity machine
      obtain ⟨⟨later, between⟩, polled⟩ : ∃ polled, poll host request host.depth activity machine = polled :=
        ⟨_, rfl⟩
      rw [polled] at run stuck live
      by_cases waits : later.Waits
      · obtain ⟨less, spent, within'⟩ := run.within staffed within
        have accounted' := run.accounted accounted
        obtain ⟨time, woken⟩ := wakes accounted' within' live waits
        have turned : machine.turns ≤ between.turns := run.later.2
        -- Either steps were spent, or one of the turns that may be missed is used up.
        have smaller : less + (host.schedule.unsettled - between.turns) < fuel := by
          by_cases none : steps = 0
          · rcases stuck none (height_le_of_within within) with ⟨early, missed⟩ | idle
            · simp only at missed
              omega
            · exact absurd due idle
          · omega
        rw [drive_woken polled waits woken]
        exact ih within' (fun name => (accounted' name).trans (Machine.owned_congr rfl).symm)
          (due_of_advanceTo woken) smaller
      · obtain ⟨outcome, settled⟩ := settled_of_not_waits waits
        rw [drive_settled polled settled]
        exact ⟨outcome, rfl⟩

end Activity

section Perform

variable {host : Host} {request : Request} {errands : Nat} {plan : Plan} {machine : Machine}

theorem Host.perform_runs : ∃ steps later,
    Activity.Run host request steps (.sleeping none machine.clock plan) machine later
      (host.perform request errands plan machine).2 :=
  let ⟨steps, later, run, _⟩ := Activity.drive_runs (host.passes errands) _ machine
  ⟨steps, later, run⟩

theorem Activity.within_start (staffed : host.registry.Staffed) {total : Nat}
    (spends : plan.Spends (host.allowance (host.registry.graph.size + 1)) total) (time : Nat) :
    Activity.Within host host.depth (.sleeping none time plan) total := by
  have low (errand : Errand) :
      rank host.registry.graph.tasks errand.task < host.registry.graph.size + 1 :=
    Nat.lt_succ_of_le (Graph.rank_le_size staffed.sound errand.task)
  exact ⟨Plan.keeps_of_free low (fun _ => trivial) (fun _ => trivial) plan, spends⟩

theorem Host.perform_settles (staffed : host.registry.Staffed)
    (spends : plan.Spends (host.allowance (host.registry.graph.size + 1)) (host.work errands))
    (idle : ∀ name, machine.memo.slot? name ≠ some .busy) :
    ∃ steps, Activity.Run host request steps (.sleeping none machine.clock plan) machine
      (.settled (host.perform request errands plan machine).1)
      (host.perform request errands plan machine).2 := by
  have within := Activity.within_start staffed spends machine.clock
  have accounted := Activity.accounted_start machine.clock plan idle
  have due : Activity.Due (.sleeping none machine.clock plan) machine := ⟨machine.clock, rfl, Nat.le_refl _⟩
  obtain ⟨outcome, same⟩ : ∃ outcome, (Activity.drive host request (host.passes errands)
      (.sleeping none machine.clock plan) machine).1 = some outcome :=
    Activity.drive_settles staffed (host.passes errands) within accounted due
      (by unfold Host.passes; omega)
  obtain ⟨steps, later, run, settles⟩ : ∃ steps later, Activity.Run host request steps _ machine later _ ∧ _ :=
    Activity.drive_runs (host.passes errands) (.sleeping none machine.clock plan) machine
  refine ⟨steps, ?_⟩
  have settled := settles outcome same
  subst settled
  simpa [Host.perform, same] using run

end Perform

end Curator
