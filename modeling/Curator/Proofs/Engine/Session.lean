import Curator.Proofs.Engine.Promise
/-!
Sessions: any number of operations side by side in one memo, with tables supplied and looked up in
between. Whatever becomes of them, a table is produced by one task at a time and never again once it
is there, and all who get it get the same.
-/

set_option autoImplicit false

namespace Curator

structure Session where
  operations : List Activity
  machine : Machine

namespace Session

inductive Event where
  | began (name : String)
  | fetched (name : String) (tables : List Table)
  | read (name : String) (found : Option Table)
  | seeded (name : String) (table : Table) (accepted : Bool)

def Event.result? : Event → Option (String × List Table)
  | fetched name tables => some (name, tables)
  | read name (some table) => some (name, [table])
  | seeded name table true => some (name, [table])
  | _ => none

inductive Shows : Event → Activity → Activity → Prop
  | begin (name : String) (deadline time : Nat) (rest : Plan) :
      Shows (.began name) (.pending (.fetch name)) (.sleeping (some ⟨name, deadline, true⟩) time rest)
  | reuse (name : String) (tables : List Table) :
      Shows (.fetched name tables) (.pending (.fetch name)) (.settled (.ok tables))
  | finish (name : String) (deadline time : Nat) (rest : Plan) (tables : List Table) :
      Shows (.fetched name tables) (.sleeping (some ⟨name, deadline, true⟩) time rest)
        (.settled (.ok tables))
  | part {event : Event} {activity later : Activity} (entry : Option Entry)
      (before behind : List Activity) (next : List Table → Plan) (shows' : Shows event activity later) :
      Shows event (.joining entry (before ++ activity :: behind) next)
        (.joining entry (before ++ later :: behind) next)

inductive Step (host : Host) (request : Request) : Option Event → Session → Session → Prop
  | launch (plan : Plan) (operations : List Activity) (machine : Machine) :
      Step host request none ⟨operations, machine⟩
        ⟨operations ++ [.sleeping none machine.clock plan], machine⟩
  | quiet (before behind : List Activity) {activity later : Activity} {machine after : Machine}
      (step : Activity.Step host request activity machine later after)
      (unseen : ∀ event, ¬ Shows event activity later) :
      Step host request none ⟨before ++ activity :: behind, machine⟩ ⟨before ++ later :: behind, after⟩
  | shown (before behind : List Activity) {activity later : Activity} {machine after : Machine}
      {event : Event} (step : Activity.Step host request activity machine later after)
      (seen : Shows event activity later) :
      Step host request (some event) ⟨before ++ activity :: behind, machine⟩
        ⟨before ++ later :: behind, after⟩
  | idle (operations : List Activity) {machine after : Machine} (idled : machine.Idled after) :
      Step host request none ⟨operations, machine⟩ ⟨operations, after⟩
  -- Nobody waits for the operation any more, and what it was doing is given up.
  | drop (before behind : List Activity) (activity : Activity) (machine : Machine) :
      Step host request none ⟨before ++ activity :: behind, machine⟩
        ⟨before ++ behind, activity.drop machine⟩
  -- A fetch makes its slot and gets no further for now.
  | touch (name : String) (operations : List Activity) (machine : Machine)
      (absent : machine.memo.slot? name = none) :
      Step host request none ⟨operations, machine⟩ ⟨operations, machine.mark name .vacant⟩
  | seed (name : String) (table : Table) (operations : List Activity) (machine : Machine) :
      Step host request (some (.seeded name table (machine.memo.seed name table).2))
        ⟨operations, machine⟩ ⟨operations, machine.withMemo (machine.memo.seed name table).1⟩
  | read (name : String) (session : Session) :
      Step host request (some (.read name (session.machine.memo.cached? name))) session session

inductive Run (host : Host) (request : Request) : List Event → Session → Session → Prop
  | stay (session : Session) : Run host request [] session session
  | step {label : Option Event} {events : List Event} {session next later : Session}
      (first : Step host request label session next) (rest : Run host request events next later) :
      Run host request (label.toList ++ events) session later

def fresh (machine : Machine) : Session := ⟨[], machine.withMemo []⟩

def inFlight (session : Session) : List String := Activity.holdingsOfAll session.operations

end Session

namespace Promise

def single (entry : Option Entry) : Promise where
  sends _ := True
  asks _ := True
  ends outcome := Activity.held entry ≠ [] → ∀ tables, outcome = .ok tables → ∃ table, tables = [table]

theorem single_of_unkept {entry : Option Entry} (unkept : Activity.held entry = []) (plan : Plan) :
    plan.Keeps (single entry) :=
  plan.keeps_of_free (fun _ => trivial) (fun _ => trivial) fun _ kept => absurd unkept kept

theorem single_ofTable (entry : Option Entry) (attempt : Except Failure Table) :
    (Plan.ofTable attempt).Keeps (single entry) := by
  cases attempt with
  | ok table => exact fun _ _ same => ⟨table, (Except.ok.inj same).symm⟩
  | error failure => exact fun _ _ same => nomatch same

theorem single_andThen (entry : Option Entry) {next : List Table → Plan}
    (onward : ∀ tables, (next tables).Keeps (single entry)) (plan : Plan) :
    (plan.andThen next).Keeps (single entry) := by
  induction plan with
  | done outcome =>
      cases outcome with
      | ok tables => exact onward tables
      | error failure => exact fun _ _ same => nomatch same
  | wait delay rest ih => exact ih
  | ask query answered ih => exact ⟨trivial, ih⟩
  | send errands finished ih => exact ⟨fun _ _ => trivial, ih⟩

end Promise

theorem Host.honors_single (host : Host) (request : Request) : host.Honors request Promise.single := by
  intro errand worker deadline found
  cases errand with
  | run task input => exact Promise.single_of_unkept rfl _
  | process task => exact Promise.single_of_unkept rfl _
  | fetch task =>
      exact Promise.single_andThen _ (fun tables => Promise.single_ofTable _ _) (worker.execute request [])

namespace Activity

theorem replaced_unique {before before' behind behind' : List Activity}
    {activity activity' later later' : Activity}
    (same : before ++ activity :: behind = before' ++ activity' :: behind')
    (then' : before ++ later :: behind = before' ++ later' :: behind') (different : activity' ≠ later') :
    activity = activity' ∧ later = later' := by
  induction before generalizing before' with
  | nil =>
      cases before' with
      | nil => exact ⟨(List.cons.inj same).1, (List.cons.inj then').1⟩
      | cons head rest =>
          have behindSame := (List.cons.inj same).2.symm.trans (List.cons.inj then').2
          exact absurd (List.cons.inj (List.append_cancel_left behindSame)).1 different
  | cons head rest ih =>
      cases before' with
      | nil => exact absurd ((List.cons.inj same).1.symm.trans (List.cons.inj then').1) different
      | cons head' rest' => exact ih (List.cons.inj same).2 (List.cons.inj then').2

variable {host : Host} {request : Request}

theorem Step.of_joining {entry entry' : Option Entry} {parts parts' : List Activity}
    {next next' : List Table → Plan} {machine after : Machine}
    (step : Step host request (.joining entry parts next) machine (.joining entry' parts' next') after) :
    ∃ before behind activity later, parts = before ++ activity :: behind ∧
      parts' = before ++ later :: behind ∧ Step host request activity machine later after := by
  cases step with
  | part entry before behind next step => exact ⟨before, behind, _, _, rfl, rfl, step⟩

end Activity

namespace Session

variable {host : Host} {request : Request}

theorem Shows.different {event : Event} {activity later : Activity} (seen : Shows event activity later) :
    activity ≠ later := by
  induction seen with
  | begin | reuse | finish => exact nofun
  | part entry before behind next _ ih =>
      intro same
      obtain ⟨-, same, -⟩ := Activity.joining.inj same
      exact ih (List.cons.inj (List.append_cancel_left same)).1

def Event.Recorded (before after : Memo) (event : Event) : Prop :=
  (∀ name, event = .began name → before.IsFree name) ∧
    ∀ name tables, event.result? = some (name, tables) →
      ∃ table, tables = [table] ∧ after.cached? name = some table

theorem Shows.recorded {event : Event} {activity later : Activity} {machine after : Machine}
    (seen : Shows event activity later) (step : Activity.Step host request activity machine later after)
    (single : activity.Abides Promise.single) : event.Recorded machine.memo after.memo := by
  induction seen with
  | begin name deadline time rest =>
      cases step with
      | begin errand worker machine free found =>
          refine ⟨?_, fun _ _ result => (nomatch result)⟩
          rintro _ ⟨⟩
          exact free rfl
  | reuse name tables =>
      cases step with
      | reuse task table machine filled =>
          refine ⟨fun _ same => (nomatch same), ?_⟩
          rintro _ _ ⟨⟩
          exact ⟨table, rfl, Memo.cached_of_slot? filled⟩
  | finish name deadline time rest tables =>
      cases step with
      | finish entry time outcome machine awake =>
          refine ⟨fun _ same => (nomatch same), ?_⟩
          rintro _ _ ⟨⟩
          cases single with
          | sleeping keeps =>
              obtain ⟨table, rfl⟩ := keeps (List.cons_ne_nil name []) tables rfl
              refine ⟨table, rfl, Memo.cached_of_slot? ?_⟩
              exact Memo.slot?_put_self name (.filled table) machine.memo
  | part entry before behind next seen ih =>
      obtain ⟨before', behind', activity', later', same, then', inner⟩ := step.of_joining
      obtain ⟨rfl, rfl⟩ := Activity.replaced_unique same.symm then'.symm seen.different
      cases single with
      | joining sent all keeps => exact ih inner (all _ (by simp))

def whole (session : Session) : Activity := .joining none session.operations .succeed

structure Sound (session : Session) : Prop where
  owns : session.whole.Owns session.machine
  single : ∀ operation ∈ session.operations, operation.Abides Promise.single

theorem sound_fresh (machine : Machine) : (fresh machine).Sound where
  owns name := Nat.zero_le _
  single operation member := by cases member

theorem Sound.slots {operations : List Activity} {machine after : Machine}
    (sound : Sound ⟨operations, machine⟩)
    (kept : ∀ name, after.memo.slot? name = machine.memo.slot? name ∨
      (machine.memo.slot? name = none ∧ after.memo.slot? name ≠ some .busy)) :
    Sound ⟨operations, after⟩ := by
  refine ⟨?_, sound.single⟩
  intro name
  rcases kept name with same | ⟨absent, idle⟩
  · exact Nat.le_trans (sound.owns name) (Nat.le_of_eq (Machine.owned_congr same).symm)
  · have none : machine.owned name = 0 := Machine.owned_of_not_busy (by simp [absent])
    have before : (Activity.holdings (whole ⟨operations, machine⟩)).count name ≤ machine.owned name :=
      sound.owns name
    rw [none] at before
    exact Nat.le_trans before (Nat.zero_le _)

theorem Sound.operation {before behind : List Activity} {activity : Activity} {machine : Machine}
    (sound : Sound ⟨before ++ activity :: behind, machine⟩) : activity.Abides Promise.single :=
  sound.single activity (by simp)

theorem Sound.work {before behind : List Activity} {activity later : Activity} {machine after : Machine}
    (sound : Sound ⟨before ++ activity :: behind, machine⟩)
    (step : Activity.Step host request activity machine later after) :
    Sound ⟨before ++ later :: behind, after⟩ where
  owns := by
    have within : Activity.Step host request (whole ⟨before ++ activity :: behind, machine⟩) machine
        (whole ⟨before ++ later :: behind, after⟩) after := .part none before behind .succeed step
    exact within.owns sound.owns
  single := Activity.forall_mem_replaced sound.single (step.abides (host.honors_single request) sound.operation)

theorem Sound.drop {before behind : List Activity} {activity : Activity} {machine : Machine}
    (sound : Sound ⟨before ++ activity :: behind, machine⟩) :
    Sound ⟨before ++ behind, activity.drop machine⟩ where
  owns := by
    intro name
    have all := sound.owns name
    have own : activity.Owns machine := Activity.Owns.part sound.owns
    have given := own.dropped name
    simp only [whole, Activity.holdings, Activity.holdingsOfAll_append, Activity.holdingsOfAll,
      List.count_append] at all ⊢
    omega
  single := by
    intro operation member
    apply sound.single operation
    rcases List.mem_append.mp member with ahead | behind
    · exact List.mem_append_left _ ahead
    · exact List.mem_append_right _ (List.mem_cons_of_mem _ behind)

theorem Step.sound {label : Option Event} {session later : Session}
    (step : Step host request label session later) (sound : session.Sound) : later.Sound := by
  cases step with
  | launch plan operations machine =>
      refine ⟨?_, ?_⟩
      · intro name
        have before := sound.owns name
        simp only [whole, Activity.holdings, Activity.holdingsOfAll_append, Activity.holdingsOfAll,
          Activity.held, List.append_nil] at before ⊢
        exact before
      · intro operation member
        rcases List.mem_append.mp member with old | new
        · exact sound.single operation old
        · rw [List.mem_singleton.mp new]
          exact .sleeping (Promise.single_of_unkept rfl plan)
  | quiet before behind step unseen => exact sound.work step
  | shown before behind step seen => exact sound.work step
  | idle operations idled => exact sound.slots fun name => .inl (by rw [idled.memo])
  | drop before behind activity machine => exact sound.drop
  | touch name operations machine absent =>
      apply sound.slots
      intro other
      rw [Machine.slot?_mark]
      by_cases same : other = name
      · exact .inr ⟨same ▸ absent, by simp [same]⟩
      · exact .inl (if_neg same)
  | seed name table operations machine =>
      apply sound.slots
      intro other
      simp only [Machine.withMemo, Memo.slot?_seed]
      by_cases fresh : machine.memo.slot? name = none ∧ other = name
      · exact .inr ⟨fresh.2 ▸ fresh.1, by simp [fresh]⟩
      · exact .inl (if_neg fresh)
  | read name session => exact sound

theorem Step.keeps_cached {label : Option Event} {session later : Session}
    (step : Step host request label session later) (sound : session.Sound) {name : String} {table : Table}
    (cached : session.machine.memo.cached? name = some table) :
    later.machine.memo.cached? name = some table := by
  have filled := Memo.slot?_of_cached cached
  have worked {before behind : List Activity} {activity later : Activity} {machine after : Machine}
      (sound : Sound ⟨before ++ activity :: behind, machine⟩)
      (filled : machine.memo.slot? name = some (.filled table))
      (step : Activity.Step host request activity machine later after) :
      after.memo.cached? name = some table :=
    Memo.cached_of_slot? (step.keeps_filled (Activity.Owns.part sound.owns) filled)
  cases step with
  | launch | read => exact cached
  | quiet before behind step unseen => exact worked sound filled step
  | shown before behind step seen => exact worked sound filled step
  | idle operations idled => exact idled.memo ▸ cached
  | drop before behind activity machine =>
      have own : activity.Owns machine := Activity.Owns.part sound.owns
      have apart : name ∉ activity.holdings := by
        intro holds
        cases (own.busy holds).symm.trans filled
      exact Memo.cached_of_slot? (by rw [Activity.slot?_drop, if_neg apart]; exact filled)
  | touch other operations machine absent =>
      have apart : name ≠ other := by
        rintro rfl
        cases absent.symm.trans filled
      exact Memo.cached_of_slot? (by rw [Machine.slot?_mark, if_neg apart]; exact filled)
  | seed other given operations machine =>
      have taken : ¬ (machine.memo.slot? other = none ∧ name = other) := by
        rintro ⟨absent, rfl⟩
        cases absent.symm.trans filled
      refine Memo.cached_of_slot? ?_
      rw [Machine.withMemo, Memo.slot?_seed, if_neg taken]
      exact filled

theorem Step.recorded {event : Event} {session later : Session}
    (step : Step host request (some event) session later) (sound : session.Sound) :
    event.Recorded session.machine.memo later.machine.memo := by
  cases step with
  | shown before behind step seen => exact seen.recorded step sound.operation
  | seed name table operations machine =>
      constructor
      · intro _ same
        cases same
      · intro other tables told
        cases slot : machine.memo.slot? name with
        | some taken =>
            have refused : (machine.memo.seed name table).2 = false := by simp [Memo.seed, slot]
            rw [refused] at told
            cases told
        | none =>
            have accepted : (machine.memo.seed name table).2 = true := by simp [Memo.seed, slot]
            rw [accepted] at told
            cases told
            refine ⟨table, rfl, Memo.cached_of_slot? ?_⟩
            rw [Machine.withMemo, Memo.slot?_seed, if_pos ⟨slot, rfl⟩]
  | read name session =>
      constructor
      · intro _ same
        cases same
      · intro other tables told
        cases found : session.machine.memo.cached? name with
        | none =>
            rw [found] at told
            cases told
        | some table =>
            rw [found] at told
            cases told
            exact ⟨table, rfl, found⟩

theorem Run.of_operation {steps : Nat} {activity later : Activity} {machine after : Machine}
    (run : Activity.Run host request steps activity machine later after) (before behind : List Activity) :
    ∃ events, Run host request events ⟨before ++ activity :: behind, machine⟩
      ⟨before ++ later :: behind, after⟩ := by
  induction run with
  | stay => exact ⟨[], .stay _⟩
  | idle idled _ ih =>
      obtain ⟨events, rest⟩ := ih
      exact ⟨events, .step (.idle _ idled) rest⟩
  | @step steps activity next later machine between after first _ ih =>
      obtain ⟨events, rest⟩ := ih
      by_cases seen : ∃ event, Shows event activity next
      · obtain ⟨event, seen⟩ := seen
        exact ⟨event :: events, .step (.shown before behind first seen) rest⟩
      · have unseen (event : Event) : ¬ Shows event activity next := fun shows' => seen ⟨event, shows'⟩
        exact ⟨events, .step (.quiet before behind first unseen) rest⟩

section Run

variable {events : List Event} {session later : Session} (run : Run host request events session later)
include run

theorem Run.sound (sound : session.Sound) : later.Sound := by
  induction run with
  | stay => exact sound
  | step first _ ih => exact ih (first.sound sound)

theorem Run.keeps_cached (sound : session.Sound) {name : String} {table : Table}
    (cached : session.machine.memo.cached? name = some table) :
    later.machine.memo.cached? name = some table := by
  induction run with
  | stay => exact cached
  | step first _ ih => exact ih (first.sound sound) (first.keeps_cached sound cached)

theorem Run.not_began (sound : session.Sound) {name : String} {table : Table}
    (cached : session.machine.memo.cached? name = some table) : .began name ∉ events := by
  induction run with
  | stay => simp
  | @step label events session next later first _ ih =>
      have behind := ih (first.sound sound) (first.keeps_cached sound cached)
      intro began
      rcases List.mem_append.mp began with here | there
      · have same : label = some (.began name) := Option.mem_toList.mp here
        subst same
        have free := (first.recorded sound).1 name rfl
        exact free.not_filled table (Memo.slot?_of_cached cached)
      · exact behind there

theorem Run.told (sound : session.Sound) {event : Event} (member : event ∈ events) {name : String}
    {tables : List Table} (result : event.result? = some (name, tables)) :
    ∃ table, tables = [table] ∧ later.machine.memo.cached? name = some table := by
  induction run with
  | stay => cases member
  | @step label events session next later first rest ih =>
      rcases List.mem_append.mp member with here | there
      · have same : label = some event := Option.mem_toList.mp here
        subst same
        obtain ⟨table, one, cached⟩ := (first.recorded sound).2 name tables result
        exact ⟨table, one, rest.keeps_cached (first.sound sound) cached⟩
      · exact ih (first.sound sound) there

end Run

theorem Sound.inFlight {session : Session} (sound : session.Sound) (name : String) :
    session.inFlight.count name ≤ 1 := by
  have owned : session.inFlight.count name ≤ session.machine.owned name := sound.owns name
  have one : session.machine.owned name ≤ 1 := by
    rw [Machine.owned]
    split <;> decide
  exact Nat.le_trans owned one

/-- On a fresh memo, whatever operations are launched, however they end or are given up, whatever
is supplied and looked up in between, and in whatever order: no table is ever produced by two at a
time; once it is there it stays and nobody begins to produce it again; and all that anybody is told
about it, by a fetch, by looking it up or by supplying it, is the one table that is there. -/
theorem single_flight (host : Host) (request : Request) (machine : Machine) {events : List Event}
    {session : Session} (reached : Run host request events (fresh machine) session) :
    (∀ name, session.inFlight.count name ≤ 1) ∧
      (∀ name table, session.machine.memo.cached? name = some table →
        ∀ further later, Run host request further session later →
          .began name ∉ further ∧ later.machine.memo.cached? name = some table) ∧
      (∀ event ∈ events, ∀ name tables, event.result? = some (name, tables) →
        ∃ table, tables = [table] ∧ session.machine.memo.cached? name = some table) ∧
      ∀ first ∈ events, ∀ second ∈ events, ∀ name one other,
        first.result? = some (name, one) → second.result? = some (name, other) → one = other := by
  have sound := reached.sound (sound_fresh machine)
  refine ⟨sound.inFlight, ?_, ?_, ?_⟩
  · intro name table cached further later run
    exact ⟨run.not_began sound cached, run.keeps_cached sound cached⟩
  · intro event member name tables result
    exact reached.told (sound_fresh machine) member result
  · intro first here second there name one other told again
    obtain ⟨table, rfl, cached⟩ := reached.told (sound_fresh machine) here told
    obtain ⟨table', rfl, cached'⟩ := reached.told (sound_fresh machine) there again
    rw [Option.some.inj (cached.symm.trans cached')]

def itemsTable : Table := ⟨"items", [⟨"id", .str⟩], [[("id", .string "i1")]]⟩

def itemsHost : Host where
  registry := ⟨⟨[], [], []⟩, [("items", .inline ⟨"items", itemsTable.columns, none, none⟩ itemsTable.rows)]⟩
  backends
    | .rows _ _ _, _ => (0, .error [])
    | .scores _ _ _ _, _ => (0, .error [])
  timeout := 1000
  schedule := .eager

theorem items_produced_once :
    ∃ session, Run itemsHost .empty [.began "items", .began "items", .fetched "items" [itemsTable],
        .seeded "items" (Table.empty "items" []) false, .read "items" (some itemsTable)]
        (fresh .start) session ∧
      session.inFlight.count "items" ≤ 1 ∧
      ∀ further later, Run itemsHost .empty further session later →
        .began "items" ∉ further ∧ later.machine.memo.cached? "items" = some itemsTable := by
  have run : ∃ events session, Run itemsHost .empty events (fresh .start) session ∧
      events = [.began "items", .began "items", .fetched "items" [itemsTable],
        .seeded "items" (Table.empty "items" []) false, .read "items" (some itemsTable)] ∧
      session.machine.memo.cached? "items" = some itemsTable := by
    refine ⟨_, _, .step (.launch (.send [.fetch "items"] .succeed) _ _) <|
      .step (.quiet [] [] (.send _ _ _ _ _ (Nat.le_refl _)) fun _ seen => by cases seen) <|
      .step (.shown [] [] (.part none [] [] _ (.begin (.fetch "items") _ _ (fun _ => .inl rfl) rfl))
        (.part none [] [] _ (.begin _ _ _ _))) <|
      .step (.drop [] [] _ _) <|
      .step (.launch (.send [.fetch "items"] .succeed) _ _) <|
      .step (.quiet [] [] (.send _ _ _ _ _ (Nat.le_refl _)) fun _ seen => by cases seen) <|
      .step (.shown [] [] (.part none [] [] _ (.begin (.fetch "items") _ _ (fun _ => .inr rfl) rfl))
        (.part none [] [] _ (.begin _ _ _ _))) <|
      .step (.shown [] [] (.part none [] [] _ (.finish _ 0 _ _ (Nat.le_refl 0)))
        (.part none [] [] _ (.finish _ _ _ _ _))) <|
      .step (.seed "items" (Table.empty "items" []) _ _) <|
      .step (.read "items" _) (.stay _), ?_, ?_⟩
    · rfl
    · rfl
  obtain ⟨_, session, run, rfl, cached⟩ := run
  obtain ⟨flights, stays, -⟩ := single_flight itemsHost .empty .start run
  exact ⟨session, run, flights "items", stays "items" itemsTable cached⟩

end Session

end Curator
