import Curator.Proofs.Engine.Progress
/-!
Two hosts that carry out the same plan, each for a request of its own and on a machine of its own. As
long as the machines stay near each other, questions are answered alike, and whatever is sent for is
the same work on both sides or is done at once on both, the hosts go through the same activities, turn
by turn, and come to the same outcome.
-/

set_option autoImplicit false

namespace Curator

structure Errand.Matched (promise : Promise) (own : String → Prop) (host other : Host)
    (request request' : Request) (errand : Errand) (machine machine' : Machine) : Prop where
  holds : errand.isFetch = true → own errand.task
  slots : errand.isFetch = true → machine'.memo.slot? errand.task = machine.memo.slot? errand.task
  plans : (other.registry.worker? errand.task).map (fun worker => errand.plan request' worker) =
    (host.registry.worker? errand.task).map fun worker => errand.plan request worker
  keeps : ∀ worker, host.registry.worker? errand.task = some worker →
    (errand.plan request worker).Keeps promise

def Errand.AtOnce (near : Machine → Machine → Prop) (host other : Host) (request request' : Request)
    (errand : Errand) (machine machine' : Machine) : Prop :=
  ∃ table after after', near after after' ∧ ∀ below below',
    Activity.start host request below errand machine = (.settled (.ok [table]), after) ∧
      Activity.start other request' below' errand machine' = (.settled (.ok [table]), after')

structure Lockstep (promise : Promise) (own : String → Prop) (near : Machine → Machine → Prop)
    (host other : Host) (request request' : Request) : Prop where
  timeout : other.timeout = host.timeout
  schedule : other.schedule = host.schedule
  size : other.registry.graph.size = host.registry.graph.size
  breadth : other.breadth = host.breadth
  clock : ∀ {machine machine'}, near machine machine' → machine'.clock = machine.clock
  turns : ∀ {machine machine'}, near machine machine' → machine'.turns = machine.turns
  advances : ∀ {machine machine'} time, near machine machine' →
    near (machine.advanceTo time) (machine'.advanceTo time)
  passes : ∀ {machine machine'} schedule, near machine machine' →
    near (machine.turn schedule).2 (machine'.turn schedule).2
  marks : ∀ {machine machine'} name slot, own name → near machine machine' →
    near (machine.mark name slot) (machine'.mark name slot)
  asks : ∀ {machine machine'} query, promise.asks query → near machine machine' →
    other.backends query (machine'.callsTo query.backend) = host.backends query (machine.callsTo query.backend) ∧
      near (machine.record query) (machine'.record query)
  starts : ∀ {machine machine'} errand, promise.sends errand → near machine machine' →
    errand.Matched promise own host other request request' machine machine' ∨
      errand.AtOnce near host other request request' machine machine'

namespace Activity

inductive Along (promise : Promise) (own : String → Prop) : Activity → Prop
  | settled (outcome : Outcome) : Along promise own (.settled outcome)
  | pending {errand : Errand} (sends : promise.sends errand) : Along promise own (.pending errand)
  | sleeping {entry : Option Entry} {time : Nat} {rest : Plan} (holds : ∀ name ∈ held entry, own name)
      (keeps : rest.Keeps promise) : Along promise own (.sleeping entry time rest)
  | joining {entry : Option Entry} {parts : List Activity} {next : List Table → Plan}
      (holds : ∀ name ∈ held entry, own name) (all : ∀ part ∈ parts, Along promise own part)
      (keeps : ∀ tables, (next tables).Keeps promise) : Along promise own (.joining entry parts next)

structure Alike (promise : Promise) (own : String → Prop) (near : Machine → Machine → Prop)
    (polled other : Activity × Machine) : Prop where
  same : other.1 = polled.1
  near : near polled.2 other.2
  along : polled.1.Along promise own

end Activity

namespace Lockstep

open Activity

variable {promise : Promise} {own : String → Prop} {near : Machine → Machine → Prop} {host other : Host}
  {request request' : Request}

theorem vacate (lockstep : Lockstep promise own near host other request request') {entry : Option Entry}
    (holds : ∀ name ∈ held entry, own name) {machine machine' : Machine} (here : near machine machine') :
    near (vacate entry machine) (vacate entry machine') := by
  simp only [Activity.vacate]
  split
  · exact lockstep.marks _ _ (holds _ List.mem_cons_self) here
  · exact here

mutual
theorem drop (lockstep : Lockstep promise own near host other request request') {activity : Activity}
    (along : activity.Along promise own) {machine machine' : Machine} (here : near machine machine') :
    near (drop activity machine) (drop activity machine') := by
  cases along with
  | settled outcome => exact here
  | pending sends => exact here
  | sleeping holds keeps => exact lockstep.vacate holds here
  | joining holds all keeps => exact lockstep.vacate holds (dropAll lockstep all here)

theorem dropAll (lockstep : Lockstep promise own near host other request request') {parts : List Activity}
    (all : ∀ part ∈ parts, part.Along promise own) {machine machine' : Machine} (here : near machine machine') :
    near (dropAll parts machine) (dropAll parts machine') := by
  cases parts with
  | nil => exact here
  | cons first rest =>
      exact dropAll lockstep (fun part member => all part (List.mem_cons_of_mem _ member))
        (drop lockstep (all first List.mem_cons_self) here)
end

theorem isBusy (lockstep : Lockstep promise own near host other request request') {task : String}
    (sends : promise.sends (.fetch task)) {machine machine' : Machine} (here : near machine machine') :
    machine'.memo.isBusy task = machine.memo.isBusy task := by
  rcases lockstep.starts _ sends here with matched | ⟨table, after, after', -, begun⟩
  · have slots : machine'.memo.slot? task = machine.memo.slot? task := matched.slots rfl
    rw [Memo.isBusy, slots, ← Memo.isBusy]
  · -- An errand that finds a busy slot is left as it is.
    have idle {host : Host} {request : Request} {below : Activity → Machine → Activity × Machine}
        {machine after : Machine}
        (begun : start host request below (.fetch task) machine = (.settled (.ok [table]), after)) :
        machine.memo.isBusy task = false := by
      simp only [Memo.isBusy]
      split
      · rename_i busy
        simp [start, busy] at begun
      · rfl
    have unmoved : Activity → Machine → Activity × Machine := fun activity machine => (activity, machine)
    obtain ⟨first, second⟩ := begun unmoved unmoved
    rw [idle first, idle second]

mutual
theorem wakeTime (lockstep : Lockstep promise own near host other request request') {activity : Activity}
    (along : activity.Along promise own) {machine machine' : Machine} (here : near machine machine') :
    activity.wakeTime machine' = activity.wakeTime machine := by
  cases along with
  | settled outcome => rfl
  | @pending errand sends =>
      cases errand with
      | run task input => exact congrArg some (lockstep.clock here)
      | process task => exact congrArg some (lockstep.clock here)
      | fetch task =>
          rw [Activity.wakeTime, Activity.wakeTime, lockstep.isBusy sends here, lockstep.clock here]
  | sleeping holds keeps => rfl
  | joining holds all keeps => rw [Activity.wakeTime, Activity.wakeTime, wakeTimeOfAny lockstep all here]

theorem wakeTimeOfAny (lockstep : Lockstep promise own near host other request request')
    {parts : List Activity} (all : ∀ part ∈ parts, part.Along promise own) {machine machine' : Machine}
    (here : near machine machine') : wakeTimeOfAny machine' parts = wakeTimeOfAny machine parts := by
  cases parts with
  | nil => rfl
  | cons first rest =>
      rw [Activity.wakeTimeOfAny, Activity.wakeTimeOfAny, wakeTime lockstep (all first List.mem_cons_self) here,
        wakeTimeOfAny lockstep (fun part member => all part (List.mem_cons_of_mem _ member)) here]
end

variable (lockstep : Lockstep promise own near host other request request')
include lockstep

theorem close {entry : Option Entry} (holds : ∀ name ∈ held entry, own name) (outcome : Outcome)
    {machine machine' : Machine} (here : near machine machine') :
    Alike promise own near (close entry outcome machine) (close entry outcome machine') where
  same := by rw [close_activity, close_activity]
  near := by
    simp only [Activity.close]
    split
    · exact lockstep.marks _ _ (holds _ List.mem_cons_self) here
    · exact lockstep.vacate holds here
  along := by
    rw [close_activity]
    exact .settled outcome

section Poll

variable {below below' : Activity → Machine → Activity × Machine}
  (polls : ∀ activity machine machine', activity.Along promise own → near machine machine' →
    Alike promise own near (below activity machine) (below' activity machine'))
include polls

theorem pollInTurn {activity : Activity} (along : activity.Along promise own) {machine machine' : Machine}
    (here : near machine machine') :
    Alike promise own near (pollInTurn host.schedule below activity machine)
      (pollInTurn other.schedule below' activity machine') := by
  have turned := lockstep.passes host.schedule here
  have taken : (machine'.turn host.schedule).1 = (machine.turn host.schedule).1 := by
    rw [Machine.turn, Machine.turn, lockstep.turns here]
  rw [lockstep.schedule]
  simp only [Activity.pollInTurn, taken]
  split
  · exact polls _ _ _ along turned
  · exact ⟨rfl, turned, along⟩

theorem pollParts (patient clear : Bool) {parts : List Activity}
    (all : ∀ part ∈ parts, part.Along promise own) {machine machine' : Machine} (here : near machine machine') :
    let polled := pollParts host.schedule below patient clear parts machine
    let polled' := pollParts other.schedule below' patient clear parts machine'
    polled'.1 = polled.1 ∧ near polled.2 polled'.2 ∧ ∀ part ∈ polled.1, part.Along promise own := by
  induction parts generalizing clear machine machine' with
  | nil => exact ⟨rfl, here, fun part member => nomatch member⟩
  | cons first rest ih =>
      have alike := lockstep.pollInTurn polls (all first List.mem_cons_self) here
      have others (part : Activity) (member : part ∈ rest) := all part (List.mem_cons_of_mem _ member)
      simp only [Activity.pollParts]
      generalize Activity.pollInTurn host.schedule below first machine = polled at alike ⊢
      generalize Activity.pollInTurn other.schedule below' first machine' = polled' at alike ⊢
      obtain ⟨first', between⟩ := polled
      obtain ⟨second', between'⟩ := polled'
      obtain ⟨same, here', along⟩ := alike
      -- Both polls have made the same of `first`, so both go the same way from here.
      cases same
      have put (clear' : Bool) :
          first' :: (Activity.pollParts other.schedule below' patient clear' rest between').1 =
              first' :: (Activity.pollParts host.schedule below patient clear' rest between).1 ∧
            near (Activity.pollParts host.schedule below patient clear' rest between).2
              (Activity.pollParts other.schedule below' patient clear' rest between').2 ∧
            ∀ part ∈ first' :: (Activity.pollParts host.schedule below patient clear' rest between).1,
              part.Along promise own := by
        obtain ⟨equal, here'', all'⟩ := ih clear' others here'
        exact ⟨by rw [equal], here'', List.forall_mem_cons.mpr ⟨along, all'⟩⟩
      rcases stands_somehow first' with ⟨tables, rfl⟩ | ⟨failure, rfl⟩ | waits
      · exact put clear
      · by_cases skips : (patient && !clear) = true
        · simp only [skips, if_true]
          exact put false
        · simp only [skips]
          exact ⟨rfl, here', List.forall_mem_cons.mpr ⟨along, others⟩⟩
      · cases first' with
        | settled outcome => exact absurd rfl (waits outcome)
        | pending | sleeping | joining => exact put false

theorem pollJoin {entry : Option Entry} {parts : List Activity} {next : List Table → Plan}
    {proceed proceed' : List Table → Machine → Activity × Machine}
    (along : Along promise own (.joining entry parts next))
    (onward : ∀ tables machine machine', near machine machine' →
      Alike promise own near (proceed tables machine) (proceed' tables machine'))
    {machine machine' : Machine} (here : near machine machine') :
    Alike promise own near (pollJoin host.schedule below entry parts next proceed machine)
      (pollJoin other.schedule below' entry parts next proceed' machine') := by
  cases along with
  | joining holds all keeps =>
      have polled := lockstep.pollParts polls (decide (widest < parts.length)) true all here
      simp only [Activity.pollJoin]
      generalize Activity.pollParts host.schedule below (decide (widest < parts.length)) true parts machine =
        first at polled ⊢
      generalize Activity.pollParts other.schedule below' (decide (widest < parts.length)) true parts machine' =
        second at polled ⊢
      obtain ⟨parts', between⟩ := first
      obtain ⟨parts'', between'⟩ := second
      obtain ⟨same, here', all'⟩ := polled
      cases same
      dsimp only at here' all' ⊢
      split
      · exact ⟨rfl, here', .joining holds all' keeps⟩
      · exact lockstep.close holds _ (lockstep.dropAll all' here')
      · exact onward _ _ _ here'

theorem follow {entry : Option Entry} (holds : ∀ name ∈ held entry, own name) {plan : Plan}
    (keeps : plan.Keeps promise) {machine machine' : Machine} (here : near machine machine') :
    Alike promise own near (follow host below entry plan machine) (follow other below' entry plan machine') := by
  induction plan generalizing machine machine' with
  | done outcome => exact lockstep.close holds outcome here
  | wait delay rest ih =>
      rw [Activity.follow, Activity.follow]
      split
      · exact ih keeps here
      · exact ⟨by rw [lockstep.clock here], here, .sleeping holds keeps⟩
  | ask query next ih =>
      obtain ⟨answered, recorded⟩ := lockstep.asks query keeps.1 here
      simp only [Activity.follow, answered]
      split
      · exact ih _ (keeps.2 _) recorded
      · exact ⟨by rw [lockstep.clock here], recorded, .sleeping holds (keeps.2 _)⟩
  | send errands next ih =>
      refine lockstep.pollJoin polls (.joining holds ?_ keeps.2)
        (fun tables machine machine' here => ih tables (keeps.2 tables) here) here
      intro part member
      obtain ⟨errand, sent, rfl⟩ := List.mem_map.mp member
      exact .pending (keeps.1 errand sent)

theorem engage {errand : Errand} {machine machine' : Machine}
    (matched : errand.Matched promise own host other request request' machine machine')
    (here : near machine machine') :
    Alike promise own near (engage host request below errand machine)
      (engage other request' below' errand machine') := by
  have reserved (slot : Slot) : near (machine.reserve errand slot) (machine'.reserve errand slot) := by
    simp only [Machine.reserve]
    split
    · exact lockstep.marks _ _ (matched.holds ‹_›) here
    · exact here
  have plans := matched.plans
  simp only [Activity.engage]
  cases found : host.registry.worker? errand.task with
  | none =>
      cases found' : other.registry.worker? errand.task with
      | none => exact ⟨rfl, reserved .vacant, .settled _⟩
      | some worker' => simp [found, found'] at plans
  | some worker =>
      cases found' : other.registry.worker? errand.task with
      | none => simp [found, found'] at plans
      | some worker' =>
          have same : errand.plan request' worker' = errand.plan request worker := by
            simpa [found, found'] using plans
          have holds (name : String)
              (held : name ∈ held (some ⟨errand.task, machine.clock + host.timeout, errand.isFetch⟩)) :
              own name := by
            cases fetch_of_held held
            exact matched.holds rfl
          dsimp only
          rw [same, lockstep.clock here, lockstep.timeout]
          exact lockstep.follow polls holds (matched.keeps worker found) (reserved .busy)

theorem start {errand : Errand} (sends : promise.sends errand) {machine machine' : Machine}
    (here : near machine machine') :
    Alike promise own near (start host request below errand machine)
      (start other request' below' errand machine') := by
  rcases lockstep.starts errand sends here with matched | ⟨table, after, after', later, begun⟩
  · have engaged := lockstep.engage polls matched here
    cases errand with
    | run task input => exact engaged
    | process task => exact engaged
    | fetch task =>
        have slots : machine'.memo.slot? task = machine.memo.slot? task := matched.slots rfl
        simp only [Activity.start, slots]
        split
        · exact ⟨rfl, here, .settled _⟩
        · exact ⟨rfl, here, .pending sends⟩
        · exact engaged
  · obtain ⟨first, second⟩ := begun below below'
    rw [first, second]
    exact ⟨rfl, later, .settled _⟩

omit polls in
theorem expire {polled polled' : Activity × Machine} (alike : Alike promise own near polled polled') :
    Alike promise own near (expire host.timeout polled.1 polled.2)
      (expire other.timeout polled'.1 polled'.2) := by
  obtain ⟨activity, machine⟩ := polled
  obtain ⟨activity', machine'⟩ := polled'
  obtain ⟨same, here, along⟩ := alike
  cases same
  dsimp only at here along ⊢
  simp only [Activity.expire]
  rw [lockstep.timeout, lockstep.clock here]
  split
  · exact ⟨rfl, here, along⟩
  · split
    · exact ⟨rfl, lockstep.drop along here, .settled _⟩
    · exact ⟨rfl, here, along⟩

end Poll

theorem poll (depth : Nat) {activity : Activity} (along : activity.Along promise own)
    {machine machine' : Machine} (here : near machine machine') :
    Alike promise own near (poll host request depth activity machine)
      (poll other request' depth activity machine') := by
  induction depth generalizing activity machine machine' with
  | zero => exact ⟨rfl, here, along⟩
  | succ depth ih =>
      have below (activity : Activity) (machine machine' : Machine) (along : activity.Along promise own)
          (here : near machine machine') := ih along here
      apply lockstep.expire
      cases along with
      | settled outcome => exact ⟨rfl, here, .settled outcome⟩
      | pending sends => exact lockstep.start below sends here
      | sleeping holds keeps =>
          dsimp only
          rw [lockstep.clock here]
          split
          · exact lockstep.follow below holds keeps here
          · exact ⟨rfl, here, .sleeping holds keeps⟩
      | joining holds all keeps =>
          exact lockstep.pollJoin below (.joining holds all keeps)
            (fun tables machine machine' here => lockstep.follow below holds (keeps tables) here) here

theorem drive (fuel : Nat) {activity : Activity} (along : activity.Along promise own)
    {machine machine' : Machine} (here : near machine machine') :
    (drive other request' fuel activity machine').1 = (drive host request fuel activity machine).1 ∧
      near (drive host request fuel activity machine).2 (drive other request' fuel activity machine').2 := by
  induction fuel generalizing activity machine machine' with
  | zero => exact ⟨rfl, here⟩
  | succ fuel ih =>
      have deep : other.depth = host.depth := congrArg (· + 2) lockstep.size
      obtain ⟨⟨later, between⟩, first⟩ :
          ∃ polled, Activity.poll host request host.depth activity machine = polled := ⟨_, rfl⟩
      obtain ⟨⟨later', between'⟩, second⟩ :
          ∃ polled, Activity.poll other request' other.depth activity machine' = polled := ⟨_, rfl⟩
      obtain ⟨same, here', along'⟩ : Alike promise own near (later, between) (later', between') := by
        rw [← first, ← second, deep]
        exact lockstep.poll host.depth along here
      cases same
      by_cases waits : later.Waits
      · have sleeps := lockstep.wakeTime along' here'
        cases woken : later.wakeTime between with
        | none =>
            rw [drive_asleep first waits woken, drive_asleep second waits (sleeps.trans woken)]
            exact ⟨rfl, here'⟩
        | some time =>
            rw [drive_woken first waits woken, drive_woken second waits (sleeps.trans woken)]
            exact ih along' (lockstep.advances time here')
      · obtain ⟨outcome, settled⟩ := settled_of_not_waits waits
        rw [drive_settled first settled, drive_settled second settled]
        exact ⟨rfl, here'⟩

theorem perform (errands : Nat) {plan : Plan} (keeps : plan.Keeps promise) {machine machine' : Machine}
    (here : near machine machine') :
    (other.perform request' errands plan machine').1 = (host.perform request errands plan machine).1 ∧
      near (host.perform request errands plan machine).2 (other.perform request' errands plan machine').2 := by
  have passes : other.passes errands = host.passes errands := by
    have deep := lockstep.size
    simp only [Host.passes, Host.work, lockstep.breadth, deep, lockstep.schedule]
  have along : Along promise own (.sleeping none machine.clock plan) :=
    .sleeping (fun _ own => nomatch own) keeps
  obtain ⟨same, here'⟩ := lockstep.drive (host.passes errands) along here
  simp only [Host.perform, passes, lockstep.clock here, same, true_and]
  exact here'

end Lockstep

end Curator
