import Curator.Proofs.Engine.Progress
/-!
How tasks in progress stand within one another. What a task waits for it depends on itself, so that
tasks nest no deeper than the graph has tasks, nobody waits for a table that waits for him, and as
long as anything is open somebody can go on without a deadline.
-/

set_option autoImplicit false

namespace Curator

def Promise.dependencies (tasks : List Task) (entry : Option Entry) : Promise where
  sends errand := ∀ own ∈ entry, Depends tasks own.task errand.task
  asks _ := True
  ends _ := True

theorem Registry.Staffed.honors_dependencies {host : Host} (staffed : host.registry.Staffed)
    (request : Request) : host.Honors request (Promise.dependencies host.registry.graph.tasks) := by
  intro errand worker deadline found
  refine (staffed.plan_depends request found).mono ?_ (fun _ _ => trivial) fun _ _ => trivial
  intro sent depends own here
  cases here
  exact depends

namespace Activity

inductive Nest : List String → Activity → Prop
  | pending (errand : Errand) : Nest [errand.task] (.pending errand)
  | running {activity : Activity} {own : Entry} (entered : activity.entry? = some own) :
      Nest [own.task] activity
  | part {names : List String} {part : Activity} {entry : Option Entry} {parts : List Activity}
      {next : List Table → Plan} (member : part ∈ parts) (nest : Nest names part) :
      Nest ((entry.map Entry.task).toList ++ names) (.joining entry parts next)

inductive Fetches (name : String) : Activity → Prop
  | pending : Fetches name (.pending (.fetch name))
  | running {activity : Activity} (holds : name ∈ held activity.entry?) : Fetches name activity

def Awaits (whole : Activity) (holder wanted : String) : Prop :=
  ∃ entry parts next, Inside (.joining entry parts next) whole ∧ holder ∈ held entry ∧
    ∃ part ∈ parts, ∃ inner, Inside inner part ∧ inner.Fetches wanted

inductive Unblocked (machine : Machine) : Activity → Prop
  | pending {errand : Errand}
      (free : errand.isFetch = true → machine.memo.slot? errand.task ≠ some .busy) :
      Unblocked machine (.pending errand)
  | sleeping (entry : Option Entry) (time : Nat) (rest : Plan) : Unblocked machine (.sleeping entry time rest)
  | complete (entry : Option Entry) (results : List (List Table)) (next : List Table → Plan) :
      Unblocked machine (.joining entry (results.map fun tables => .settled (.ok tables)) next)
  | failed (entry : Option Entry) {parts : List Activity} (next : List Table → Plan) {failure : Failure}
      (failed : .settled (.error failure) ∈ parts) : Unblocked machine (.joining entry parts next)
  | part {part : Activity} (entry : Option Entry) {parts : List Activity} (next : List Table → Plan)
      (member : part ∈ parts) (inner : Unblocked machine part) :
      Unblocked machine (.joining entry parts next)

variable {host : Host} {request : Request}

theorem Unblocked.steps {activity : Activity} {machine : Machine} (unblocked : activity.Unblocked machine) :
    ∃ between later after, machine.Idled between ∧ Step host request activity between later after := by
  induction unblocked with
  | @pending errand free =>
      have begun (unfilled : errand.isFetch = true → machine.memo.IsFree errand.task) :
          ∃ between later after, machine.Idled between ∧
            Step host request (.pending errand) between later after := by
        cases found : host.registry.worker? errand.task with
        | none => exact ⟨_, _, _, .refl _, .refuse errand machine unfilled found⟩
        | some worker => exact ⟨_, _, _, .refl _, .begin errand worker machine unfilled found⟩
      cases errand with
      | run task input => exact begun fun fetches => nomatch fetches
      | process task => exact begun fun fetches => nomatch fetches
      | fetch task =>
          cases slot : machine.memo.slot? task with
          | none => exact begun fun _ => .inl slot
          | some slot' =>
              cases slot' with
              | vacant => exact begun fun _ => .inr slot
              | busy => exact absurd slot (free rfl)
              | filled table => exact ⟨_, _, _, .refl _, .reuse task table machine slot⟩
  | sleeping entry time rest =>
      have awake : time ≤ (machine.advanceTo time).clock := Nat.le_max_right _ _
      refine ⟨machine.advanceTo time, ?_⟩
      cases rest with
      | done outcome => exact ⟨_, _, machine.advanceTo_idled time, .finish entry time outcome _ awake⟩
      | wait delay rest => exact ⟨_, _, machine.advanceTo_idled time, .wait entry time delay rest _ awake⟩
      | ask query next => exact ⟨_, _, machine.advanceTo_idled time, .ask entry time query next _ awake⟩
      | send errands next => exact ⟨_, _, machine.advanceTo_idled time, .send entry time errands next _ awake⟩
  | complete entry results next => exact ⟨_, _, _, .refl _, .proceed entry results next machine⟩
  | failed entry next failed => exact ⟨_, _, _, .refl _, .abort entry _ next _ machine failed⟩
  | part entry next member _ ih =>
      obtain ⟨between, later, after, idled, step⟩ := ih
      obtain ⟨before, behind, rfl⟩ := List.append_of_mem member
      exact ⟨between, _, after, idled, .part entry before behind next step⟩

theorem Unblocked.widen {inner whole : Activity} {machine : Machine} (unblocked : inner.Unblocked machine)
    (inside : Inside inner whole) : whole.Unblocked machine := by
  induction inside with
  | here => exact unblocked
  | part member _ ih => exact .part _ _ member ih

theorem SentBy.mono {sends wider : Errand → Prop} {activity : Activity} (sent : activity.SentBy sends)
    (widens : ∀ errand, sends errand → wider errand) : activity.SentBy wider := by
  cases activity with
  | settled outcome => trivial
  | pending errand => exact widens errand sent
  | sleeping entry time rest =>
      obtain ⟨errand, deadline, sends, same⟩ := sent
      exact ⟨errand, deadline, widens errand sends, same⟩
  | joining entry parts next =>
      obtain ⟨errand, deadline, sends, same⟩ := sent
      exact ⟨errand, deadline, widens errand sends, same⟩

theorem SentBy.entered {sends : Errand → Prop} {activity : Activity} {own : Entry}
    (sent : activity.SentBy sends) (entered : activity.entry? = some own) :
    ∃ errand, sends errand ∧ own.task = errand.task := by
  cases activity with
  | settled outcome => cases entered
  | pending errand => cases entered
  | sleeping entry time rest =>
      obtain ⟨errand, deadline, sends, same⟩ := sent
      cases same.symm.trans entered
      exact ⟨errand, sends, rfl⟩
  | joining entry parts next =>
      obtain ⟨errand, deadline, sends, same⟩ := sent
      cases same.symm.trans entered
      exact ⟨errand, sends, rfl⟩

theorem entered_of_held {entry : Option Entry} {name : String} (holds : name ∈ held entry) :
    ∃ own, entry = some own ∧ own.task = name := by
  rcases entry with _ | ⟨task, deadline, _ | _⟩
  · simp [held] at holds
  · simp [held] at holds
  · exact ⟨⟨task, deadline, true⟩, rfl, by simpa [held, eq_comm] using holds⟩

theorem Nest.head_sent {sends : String → Prop} {names : List String} {activity : Activity}
    (nest : activity.Nest names) (sent : activity.SentBy fun errand => sends errand.task) :
    ∀ name ∈ names.head?, sends name := by
  have own {activity : Activity} {own : Entry} (entered : activity.entry? = some own)
      (sent : activity.SentBy fun errand => sends errand.task) : sends own.task := by
    obtain ⟨errand, sends, same⟩ := sent.entered entered
    exact same ▸ sends
  intro name first
  cases nest with
  | pending errand =>
      cases first
      exact sent
  | running entered =>
      cases first
      exact own entered sent
  | part member nest =>
      obtain ⟨errand, deadline, sends, rfl⟩ := sent
      cases first
      exact sends

section Dependencies

variable {tasks : List Task}

theorem Abides.linked {activity : Activity} (abides : activity.Abides (Promise.dependencies tasks))
    {names : List String} (nest : Nest names activity) : names.IsChain (Depends tasks) := by
  induction nest with
  | pending errand => exact List.isChain_singleton _
  | running entered => exact List.isChain_singleton _
  | @part names part entry parts next member nest ih =>
      cases abides with
      | joining sent all keeps =>
          have below := ih (all part member)
          cases entry with
          | none => simpa using below
          | some own =>
              have first : ∀ name ∈ names.head?, Depends tasks own.task name := by
                refine nest.head_sent ((sent part member).mono ?_)
                intro errand depends
                exact depends own rfl
              exact List.isChain_cons.mpr ⟨first, below⟩

theorem Abides.nest_length {graph : Graph} (sound : graph.Sound) {activity : Activity}
    (abides : activity.Abides (Promise.dependencies graph.tasks)) {names : List String}
    (nest : Nest names activity) :
    names.length ≤ graph.size ∨ ∃ name, names = [name] ∧ graph.lookup name = none := by
  have linked := abides.linked nest
  have acyclic := Graph.acyclic_of_sound sound
  cases names with
  | nil => exact .inl (Nat.zero_le _)
  | cons first rest =>
      have short := length_le_rank acyclic (fun _ _ => Graph.dependency_found sound) linked
      cases found : graph.lookup first with
      | some task =>
          have low : rank graph.tasks first < graph.tasks.length := rank_lt_length acyclic ⟨task, found⟩
          exact .inl (Nat.lt_of_le_of_lt short low)
      | none =>
          rw [rank_of_undefined found, Nat.le_zero, List.length_eq_zero_iff] at short
          exact .inr ⟨first, by rw [short], found⟩

theorem Abides.reaches {holder wanted : String} {inner activity : Activity}
    (inside : Inside inner activity) (abides : activity.Abides (Promise.dependencies tasks))
    (sent : activity.SentBy fun errand => Reaches tasks holder errand.task) (fetches : inner.Fetches wanted) :
    Reaches tasks holder wanted := by
  induction inside with
  | here =>
      cases fetches with
      | pending => exact sent
      | running holds =>
          obtain ⟨own, entered, rfl⟩ := entered_of_held holds
          obtain ⟨errand, reached, same⟩ := sent.entered entered
          exact same ▸ reached
  | part member inside ih =>
      obtain ⟨errand, deadline, reached, entered⟩ := sent
      cases abides with
      | joining sent all keeps =>
          refine ih (all _ member) ((sent _ member).mono ?_)
          intro below depends
          exact reached.tail (depends _ entered)

theorem Abides.awaits {whole : Activity} (abides : whole.Abides (Promise.dependencies tasks))
    {holder wanted : String} (awaits : whole.Awaits holder wanted) : Reaches tasks holder wanted := by
  obtain ⟨entry, parts, next, inside, holds, part, member, inner, within, fetches⟩ := awaits
  obtain ⟨own, rfl, rfl⟩ := entered_of_held holds
  cases abides.inside inside with
  | joining sent all keeps =>
      refine (all part member).reaches within ((sent part member).mono ?_) fetches
      intro errand depends
      exact .single (depends own rfl)

end Dependencies

mutual
theorem inside_of_holdings {activity : Activity} {name : String} (own : name ∈ activity.holdings) :
    ∃ inner, Inside inner activity ∧ name ∈ held inner.entry? := by
  cases activity with
  | settled outcome => simp [holdings] at own
  | pending errand => simp [holdings] at own
  | sleeping entry time rest => exact ⟨_, .here _, own⟩
  | joining entry parts next =>
      rcases List.mem_append.mp own with here | below
      · exact ⟨_, .here _, here⟩
      · obtain ⟨part, member, inner, inside, holds⟩ := inside_of_holdingsOfAll below
        exact ⟨inner, .part member inside, holds⟩

theorem inside_of_holdingsOfAll {parts : List Activity} {name : String} (own : name ∈ holdingsOfAll parts) :
    ∃ part ∈ parts, ∃ inner, Inside inner part ∧ name ∈ held inner.entry? := by
  cases parts with
  | nil => simp [holdingsOfAll] at own
  | cons first rest =>
      rcases List.mem_append.mp own with here | behind
      · obtain ⟨inner, inside, holds⟩ := inside_of_holdings here
        exact ⟨first, List.mem_cons_self, inner, inside, holds⟩
      · obtain ⟨part, member, found⟩ := inside_of_holdingsOfAll behind
        exact ⟨part, List.mem_cons_of_mem _ member, found⟩
end

theorem fetch_of_blocked {activity : Activity} {machine : Machine} (waits : activity.Waits)
    (blocked : ¬ activity.Unblocked machine) :
    ∃ name, Inside (.pending (.fetch name)) activity ∧ machine.memo.slot? name = some .busy := by
  cases activity with
  | settled outcome => exact absurd rfl (waits outcome)
  | pending errand =>
      have busy : errand.isFetch = true ∧ machine.memo.slot? errand.task = some .busy := by
        by_contra free
        exact blocked (.pending fun fetches busy => free ⟨fetches, busy⟩)
      obtain ⟨fetches, busy⟩ := busy
      cases errand with
      | run task input => cases fetches
      | process task => cases fetches
      | fetch task => exact ⟨task, .here _, busy⟩
  | sleeping entry time rest => exact absurd (.sleeping entry time rest) blocked
  | joining entry parts next =>
      cases stands : standing false parts with
      | complete tables =>
          obtain ⟨results, rfl, -⟩ := standing_complete stands
          exact absurd (.complete entry results next) blocked
      | failed failure => exact absurd (.failed entry next (standing_failed stands)) blocked
      | «open» =>
          obtain ⟨part, member, open'⟩ := standing_open stands
          have stuck : ¬ part.Unblocked machine := fun goes => blocked (.part entry next member goes)
          obtain ⟨name, inside, busy⟩ := fetch_of_blocked open' stuck
          exact ⟨name, .part member inside, busy⟩
termination_by activity

theorem Abides.unblocked {tasks : List Task}
    (ends : WellFounded fun dependency name => Depends tasks name dependency) {whole : Activity}
    {machine : Machine} (abides : whole.Abides (Promise.dependencies tasks))
    (accounted : whole.Accounted machine) (waits : whole.Waits) : whole.Unblocked machine := by
  by_contra blocked
  have nowhere (name : String) : machine.memo.slot? name ≠ some .busy := by
    -- The one who is to fill the slot waits for a slot further down.
    induction name using ends.transGen.induction with
    | h name ih =>
        intro busy
        have owed := accounted name
        rw [Machine.owned_of_busy busy] at owed
        have held : name ∈ whole.holdings := List.count_pos_iff.mp (by omega)
        obtain ⟨filler, inside, holds⟩ := inside_of_holdings held
        have stuck : ¬ filler.Unblocked machine := fun goes => blocked (goes.widen inside)
        cases filler with
        | settled outcome => simp [Activity.held, entry?] at holds
        | pending errand => simp [Activity.held, entry?] at holds
        | sleeping entry time rest => exact stuck (.sleeping entry time rest)
        | joining entry parts next =>
            have waits : Waits (.joining entry parts next) := by
              intro _ same
              cases same
            obtain ⟨wanted, below, busy'⟩ := fetch_of_blocked waits stuck
            cases below with
            | part member deeper =>
                have awaits : whole.Awaits name wanted :=
                  ⟨entry, parts, next, inside, holds, _, member, _, deeper, .pending⟩
                exact ih wanted (Relation.transGen_swap.mpr (abides.awaits awaits)) busy'
  obtain ⟨name, -, busy⟩ := fetch_of_blocked waits blocked
  exact nowhere name busy

end Activity

end Curator
