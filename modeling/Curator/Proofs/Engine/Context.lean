import Curator.Proofs.Engine.Progress
import Curator.Proofs.Engine.Session
/-!
The memo of a request between operations that follow one another. A name has a slot as soon as a table
is supplied under it or its own table is sought, whatever comes of that. So a table can be supplied
where there is none, unless the name was sought in vain before.
-/

set_option autoImplicit false

namespace Curator

namespace Activity

-- The table of a name is sought: a fetch finds neither the table nor anybody who is producing it, and
-- the task is refused or begun.
inductive Seeks (name : String) : Activity → Activity → Prop
  | refused : Seeks name (.pending (.fetch name)) (.settled (.error (.taskNotFound name)))
  | begun (deadline time : Nat) (rest : Plan) :
      Seeks name (.pending (.fetch name)) (.sleeping (some ⟨name, deadline, true⟩) time rest)
  | part {activity later : Activity} (entry : Option Entry) (before behind : List Activity)
      (next : List Table → Plan) (seeks : Seeks name activity later) :
      Seeks name (.joining entry (before ++ activity :: behind) next)
        (.joining entry (before ++ later :: behind) next)

inductive Log (host : Host) (request : Request) :
    List String → Activity → Machine → Activity → Machine → Prop
  | stay (activity : Activity) (machine : Machine) : Log host request [] activity machine activity machine
  | idle {names : List String} {activity later : Activity} {machine between after : Machine}
      (idled : machine.Idled between) (rest : Log host request names activity between later after) :
      Log host request names activity machine later after
  | quiet {names : List String} {activity next later : Activity} {machine between after : Machine}
      (first : Step host request activity machine next between) (unsought : ∀ name, ¬ Seeks name activity next)
      (rest : Log host request names next between later after) :
      Log host request names activity machine later after
  | sought {name : String} {names : List String} {activity next later : Activity}
      {machine between after : Machine} (first : Step host request activity machine next between)
      (seeks : Seeks name activity next) (rest : Log host request names next between later after) :
      Log host request (name :: names) activity machine later after

variable {host : Host} {request : Request} {names : List String} {activity later : Activity}
  {machine after : Machine}

theorem Run.logged {steps : Nat} (run : Run host request steps activity machine later after) :
    ∃ names, Log host request names activity machine later after := by
  induction run with
  | stay => exact ⟨[], .stay _ _⟩
  | idle idled _ ih =>
      obtain ⟨names, rest⟩ := ih
      exact ⟨names, .idle idled rest⟩
  | @step _ activity next _ _ _ _ first _ ih =>
      obtain ⟨names, rest⟩ := ih
      by_cases seeks : ∃ name, Seeks name activity next
      · obtain ⟨name, seeks⟩ := seeks
        exact ⟨name :: names, .sought first seeks rest⟩
      · exact ⟨names, .quiet first (fun name sought => seeks ⟨name, sought⟩) rest⟩

theorem Log.run (log : Log host request names activity machine later after) :
    ∃ steps, Run host request steps activity machine later after := by
  induction log with
  | stay => exact ⟨0, .stay _ _⟩
  | idle idled _ ih =>
      obtain ⟨steps, rest⟩ := ih
      exact ⟨steps, .idle idled rest⟩
  | quiet first _ _ ih | sought first _ _ ih =>
      obtain ⟨steps, rest⟩ := ih
      exact ⟨steps + 1, .step first rest⟩

theorem not_seeks_ended {name : String} {entry : Option Entry} {parts : List Activity}
    {next : List Table → Plan} {outcome : Outcome} :
    ¬ Seeks name (.joining entry parts next) (.settled outcome) := nofun

theorem not_seeks_resumed {name : String} {entry entry' : Option Entry} {parts : List Activity}
    {next : List Table → Plan} {time : Nat} {rest : Plan} :
    ¬ Seeks name (.joining entry parts next) (.sleeping entry' time rest) := nofun

theorem Seeks.different {name : String} (seeks : Seeks name activity later) : activity ≠ later := by
  induction seeks with
  | refused | begun => exact nofun
  | part entry before behind next _ ih =>
      intro same
      obtain ⟨-, same, -⟩ := Activity.joining.inj same
      exact ih (List.cons.inj (List.append_cancel_left same)).1

theorem seeks_part_iff {name : String} {entry : Option Entry} {before behind : List Activity}
    {next : List Table → Plan} :
    Seeks name (.joining entry (before ++ activity :: behind) next)
      (.joining entry (before ++ later :: behind) next) ↔ Seeks name activity later := by
  constructor
  · intro seeks
    generalize first : Activity.joining entry (before ++ activity :: behind) next = whole at seeks
    generalize second : Activity.joining entry (before ++ later :: behind) next = whole' at seeks
    cases seeks with
    | refused | begun => cases first
    | part entry' before' behind' next' seeks =>
        obtain ⟨-, same, -⟩ := Activity.joining.inj first
        obtain ⟨-, then', -⟩ := Activity.joining.inj second
        obtain ⟨rfl, rfl⟩ := replaced_unique same then' seeks.different
        exact seeks
  · exact .part entry before behind next

theorem Seeks.unique {name other : String} (seeks : Seeks name activity later) (too : Seeks other activity later) :
    other = name := by
  induction seeks with
  | refused | begun =>
      cases too
      rfl
  | part entry before behind next _ ih => exact ih (seeks_part_iff.mp too)

theorem slot?_reserve_eq_none_iff {name : String} {errand : Errand} (slot : Slot) (machine : Machine)
    (sought : Seeks name (.pending errand) later ↔ errand = .fetch name) :
    (machine.reserve errand slot).memo.slot? name = none ↔
      machine.memo.slot? name = none ∧ ¬ Seeks name (.pending errand) later := by
  have own : errand = .fetch name ↔ errand.isFetch = true ∧ name = errand.task := by
    cases errand <;> simp [Errand.isFetch, Errand.task, eq_comm]
  rw [sought, own, Machine.slot?_reserve]
  by_cases fetches : errand.isFetch = true ∧ name = errand.task <;> simp [fetches]

theorem Owns.slot?_eq_none_iff {name : String} (owns : activity.Owns machine)
    (held : name ∈ activity.holdings → after.memo.slot? name ≠ none)
    (apart : name ∉ activity.holdings → after.memo.slot? name = machine.memo.slot? name) :
    after.memo.slot? name = none ↔ machine.memo.slot? name = none := by
  by_cases own : name ∈ activity.holdings
  · simp [held own, owns.busy own]
  · rw [apart own]

theorem Owns.slot?_drop_eq_none_iff {name : String} (owns : activity.Owns machine) :
    (drop activity machine).memo.slot? name = none ↔ machine.memo.slot? name = none := by
  refine owns.slot?_eq_none_iff (fun own => ?_) (fun apart => ?_)
  · simp [slot?_drop, own]
  · rw [slot?_drop, if_neg apart]

theorem Step.slot?_eq_none_iff (step : Step host request activity machine later after)
    (owns : activity.Owns machine) (name : String) :
    after.memo.slot? name = none ↔ machine.memo.slot? name = none ∧ ¬ Seeks name activity later := by
  induction step with
  | refuse errand machine =>
      refine slot?_reserve_eq_none_iff .vacant machine ⟨?_, ?_⟩
      · rintro ⟨⟩
        rfl
      · rintro rfl
        exact .refused
  | begin errand worker machine =>
      refine slot?_reserve_eq_none_iff .busy machine ⟨?_, ?_⟩
      · rintro ⟨⟩
        rfl
      · rintro rfl
        exact .begun _ _ _
  | reuse | wait | ask | send => exact (and_iff_left (by rintro ⟨⟩)).symm
  | proceed => exact (and_iff_left not_seeks_resumed).symm
  | finish entry time outcome machine =>
      refine (owns.slot?_eq_none_iff ?_ fun apart => slot?_close_of_apart apart outcome machine).trans
        (and_iff_left (by rintro ⟨⟩)).symm
      intro own
      rcases slot?_close entry outcome machine name with ⟨apart, -⟩ | ⟨-, vacant⟩ | ⟨-, table, -, filled⟩
      · exact absurd own apart
      · simp [vacant]
      · simp [filled]
  | abort entry parts next failure machine =>
      rw [close_dropAll entry parts next failure machine]
      exact owns.slot?_drop_eq_none_iff.trans (and_iff_left not_seeks_ended).symm
  | expire activity entry machine =>
      exact owns.slot?_drop_eq_none_iff.trans (and_iff_left (by rintro ⟨⟩)).symm
  | part entry before behind next _ ih =>
      rw [seeks_part_iff]
      exact ih owns.part

theorem Log.slot?_eq_none_iff (log : Log host request names activity machine later after)
    (owns : activity.Owns machine) (name : String) :
    after.memo.slot? name = none ↔ machine.memo.slot? name = none ∧ name ∉ names := by
  induction log with
  | stay => simp
  | idle idled _ ih => rw [ih (owns.idled idled), idled.memo]
  | quiet first unsought _ ih =>
      rw [ih (first.owns owns), first.slot?_eq_none_iff owns]
      simp [unsought]
  | sought first seeks _ ih =>
      have one : Seeks name _ _ ↔ name = _ := ⟨seeks.unique, fun same => same ▸ seeks⟩
      rw [ih (first.owns owns), first.slot?_eq_none_iff owns, one]
      simp [and_assoc]

end Activity

namespace Memo

variable {memo after : Memo} {name : String}

theorem cached?_of_same (same : after.slot? name = memo.slot? name) : after.cached? name = memo.cached? name := by
  rw [cached?, cached?, same]

theorem seed_of_absent (absent : memo.slot? name = none) (table : Table) :
    (memo.seed name table).2 = true ∧ (memo.seed name table).1.cached? name = some table := by
  refine ⟨by rw [seed, absent], cached_of_slot? ?_⟩
  rw [slot?_seed, if_pos ⟨absent, rfl⟩]

theorem seed_of_present {slot : Slot} (present : memo.slot? name = some slot) (table : Table) :
    memo.seed name table = (memo, false) := by
  rw [seed, present]

theorem seed_of_ne {other : String} (different : other ≠ name) (table : Table) :
    (memo.seed name table).1.cached? other = memo.cached? other := by
  refine cached?_of_same ?_
  rw [slot?_seed, if_neg fun both => different both.2]

structure Rests (sought : List String) (memo : Memo) : Prop where
  idle : ∀ name, memo.slot? name ≠ some .busy
  known : ∀ name ∈ sought, memo.slot? name ≠ none
  vain : ∀ name, memo.slot? name = some .vacant → name ∈ sought

end Memo

namespace Host

/-- What becomes of a fresh memo when operations follow one another, each carried out to its end, and the
names of the tables that are sought meanwhile. Operations are plans: fetches, tasks, stages and all
that can be made of them. They may end well, fail or be late; looking tables up leaves all as it is. -/
inductive Reached (host : Host) (request : Request) : List String → Machine → Prop
  | fresh (machine : Machine) : Reached host request [] (machine.withMemo [])
  | seed {sought : List String} {machine : Machine} (reached : Reached host request sought machine)
      (name : String) (table : Table) :
      Reached host request sought (machine.withMemo (machine.memo.seed name table).1)
  | carry {sought names : List String} {machine after : Machine} {plan : Plan} {outcome : Outcome}
      (reached : Reached host request sought machine)
      (log : Activity.Log host request names (.sleeping none machine.clock plan) machine (.settled outcome) after) :
      Reached host request (sought ++ names) after

variable {host : Host} {request : Request} {sought : List String} {machine : Machine}

theorem Reached.rests (reached : host.Reached request sought machine) : machine.memo.Rests sought := by
  induction reached with
  | fresh machine => exact ⟨by rintro name ⟨⟩, by rintro name ⟨⟩, by rintro name ⟨⟩⟩
  | @seed sought machine _ name table ih =>
      refine ⟨fun other => ?_, fun other member => ?_, fun other => ?_⟩
      all_goals
        rw [Machine.withMemo, Memo.slot?_seed]
        split
      · rintro ⟨⟩
      · exact ih.idle other
      · rintro ⟨⟩
      · exact ih.known other member
      · rintro ⟨⟩
      · exact ih.vain other
  | @carry sought names machine after plan outcome _ log ih =>
      have accounted := Activity.accounted_start machine.clock plan ih.idle
      have slots := log.slot?_eq_none_iff accounted.owns
      obtain ⟨steps, run⟩ := log.run
      refine ⟨fun name busy => ?_, fun name member absent => ?_, fun name vacant => ?_⟩
      · have none := run.accounted accounted name
        rw [Machine.owned_of_busy busy] at none
        cases none
      · obtain ⟨before, unsought⟩ := (slots name).mp absent
        exact ih.known name ((List.mem_append.mp member).resolve_right unsought) before
      · refine List.mem_append.mpr ?_
        cases slot : machine.memo.slot? name with
        | none =>
            refine .inr (Decidable.byContradiction fun unsought => ?_)
            cases vacant.symm.trans ((slots name).mpr ⟨slot, unsought⟩)
        | some own =>
            cases own with
            | vacant => exact .inl (ih.vain name slot)
            | busy => exact absurd slot (ih.idle name)
            | filled table => cases vacant.symm.trans (run.retains accounted.owns name table slot)

theorem Reached.perform (reached : host.Reached request sought machine) (staffed : host.registry.Staffed)
    {errands : Nat} {plan : Plan}
    (spends : plan.Spends (host.allowance (host.registry.graph.size + 1)) (host.work errands)) :
    ∃ names, host.Reached request (sought ++ names) (host.perform request errands plan machine).2 := by
  obtain ⟨_, run⟩ := host.perform_settles staffed spends reached.rests.idle
  obtain ⟨names, log⟩ := run.logged
  exact ⟨names, .carry reached log⟩

/-- Whatever operations came before, supplying a table says whether there is one already, and leaves that
one or the new one there, unless the name was sought before and still has no table: then the table is
refused, and there is none afterwards either. Other names are left alone. -/
theorem seed_reports (reached : host.Reached request sought machine) (name : String) (table : Table) :
    (machine.memo.cached? name ≠ none ∨ name ∉ sought →
        ((machine.memo.seed name table).2 = false ↔ (machine.memo.cached? name).isSome = true) ∧
          (machine.memo.seed name table).1.cached? name = some ((machine.memo.cached? name).getD table)) ∧
      (machine.memo.cached? name = none → name ∈ sought →
        (machine.memo.seed name table).2 = false ∧ (machine.memo.seed name table).1.cached? name = none) ∧
      ∀ other, other ≠ name → (machine.memo.seed name table).1.cached? other = machine.memo.cached? other := by
  have rests := reached.rests
  refine ⟨fun either => ?_, fun absent member => ?_, fun other different => Memo.seed_of_ne different table⟩
  · cases slot : machine.memo.slot? name with
    | none =>
        have absent : machine.memo.cached? name = none := by rw [Memo.cached?, slot]
        obtain ⟨accepted, filled⟩ := Memo.seed_of_absent slot table
        simp [accepted, filled, absent]
    | some own =>
        rw [Memo.seed_of_present slot]
        cases own with
        | vacant =>
            rcases either with present | unsought
            · exact absurd (by rw [Memo.cached?, slot]) present
            · exact absurd (rests.vain name slot) unsought
        | busy => exact absurd slot (rests.idle name)
        | filled there => simp [Memo.cached_of_slot? slot]
  · obtain ⟨own, slot⟩ := Option.ne_none_iff_exists'.mp (rests.known name member)
    rw [Memo.seed_of_present slot]
    exact ⟨rfl, absent⟩

open Session (itemsHost itemsTable)
open Activity (Seeks Log)

theorem Reached.refused (reached : host.Reached request sought machine) (name : String)
    (absent : machine.memo.slot? name = none) (missing : host.registry.worker? name = none) :
    host.Reached request (sought ++ [name]) (machine.mark name .vacant) := by
  have log : Log host request [name] (.sleeping none machine.clock (.pull [name] .succeed)) machine
      (.settled (.error (.taskNotFound name))) (machine.mark name .vacant) :=
    .quiet (.send _ _ _ _ _ (Nat.le_refl _)) (fun _ => nofun) <|
      .sought (.part none [] [] _ (.refuse (.fetch name) machine (fun _ => .inl absent) missing))
        (.part none [] [] _ .refused) <|
      .quiet (.abort none [.settled (.error (.taskNotFound name))] _ _ _ (by simp))
        (fun _ => Activity.not_seeks_ended) (.stay _ _)
  exact .carry reached log

theorem not_seeks_arrived {name : String} {entry : Option Entry} {time : Nat} {rest : Plan} {outcome : Outcome}
    {next : List Table → Plan} :
    ¬ Seeks name (.joining none [.sleeping entry time rest] next) (.joining none [.settled outcome] next) := by
  intro seeks
  have part : Seeks name (.sleeping entry time rest) (.settled outcome) :=
    Activity.seeks_part_iff.mp (show Seeks name (.joining none ([] ++ [_]) next) (.joining none ([] ++ [_]) next) from
      seeks)
  cases part

theorem items_fetched :
    itemsHost.Reached .empty ["items"] (Machine.start.mark "items" (.filled itemsTable)) := by
  have log : Log itemsHost .empty ["items"] (.sleeping none 0 (.pull ["items"] .succeed))
      (Machine.start.withMemo []) (.settled (.ok [itemsTable])) (Machine.start.mark "items" (.filled itemsTable)) :=
    .quiet (.send _ _ _ _ _ (Nat.le_refl _)) (fun _ => nofun) <|
      .sought (.part none [] [] _ (.begin (.fetch "items") _ _ (fun _ => .inl rfl) rfl))
        (.part none [] [] _ (.begun _ _ _)) <|
      .quiet (.part none [] [] _ (.finish _ 0 _ _ (Nat.le_refl 0)))
        (fun _ => not_seeks_arrived) <|
      .quiet (.proceed none [[itemsTable]] _ _) (fun _ => Activity.not_seeks_resumed) <|
      .quiet (.finish none 0 _ _ (Nat.le_refl 0)) (fun _ => nofun) (.stay _ _)
  exact .carry (.fresh .start) log

theorem items_users_scores_reported :
    ∃ machine, itemsHost.Reached .empty ["items", "users"] machine ∧
      ((machine.memo.seed "items" (Table.empty "items" [])).2 = false ∧
        (machine.memo.seed "items" (Table.empty "items" [])).1.cached? "items" = some itemsTable) ∧
      ((machine.memo.seed "users" (Table.empty "users" [])).2 = false ∧
        (machine.memo.seed "users" (Table.empty "users" [])).1.cached? "users" = none) ∧
      ((machine.memo.seed "scores" (Table.empty "scores" [])).2 = true ∧
        (machine.memo.seed "scores" (Table.empty "scores" [])).1.cached? "scores" =
          some (Table.empty "scores" [])) := by
  have reached : itemsHost.Reached .empty ["items", "users"] _ := items_fetched.refused "users" rfl rfl
  obtain ⟨present, -, -⟩ := seed_reports reached "items" (Table.empty "items" [])
  obtain ⟨-, vain, -⟩ := seed_reports reached "users" (Table.empty "users" [])
  obtain ⟨absent, -, -⟩ := seed_reports reached "scores" (Table.empty "scores" [])
  obtain ⟨told, kept⟩ := present (.inl nofun)
  obtain ⟨free, supplied⟩ := absent (.inr (by decide))
  refine ⟨_, reached, ⟨told.mpr rfl, kept⟩, vain rfl (by decide), ?_, supplied⟩
  exact eq_true_of_ne_false fun refused => nomatch free.mp refused

theorem vain_fetch_bars_seed :
    ¬ ∀ (host : Host) (request : Request) (sought : List String) (machine : Machine),
      host.Reached request sought machine → ∀ (name : String) (table : Table),
        ((machine.memo.seed name table).2 = false ↔ (machine.memo.cached? name).isSome = true) := by
  intro reports
  have reached : itemsHost.Reached .empty ["users"] _ :=
    (Reached.fresh Machine.start).refused "users" rfl rfl
  have present := (reports _ _ _ _ reached "users" (Table.empty "users" [])).mp rfl
  cases present

end Host

end Curator
