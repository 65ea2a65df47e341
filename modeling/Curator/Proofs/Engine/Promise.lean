import Curator.Proofs.Engine.Ownership
/-!
What plans keep to. A promise says which errands are sent, what is asked and how it ends. When the
plans of all the workers that are sent for keep a promise, so does everything that is ever in
progress, and nothing is asked and no slot is touched beyond it.
-/

set_option autoImplicit false

namespace Curator

structure Promise where
  sends : Errand → Prop
  asks : Query → Prop
  ends : Outcome → Prop

-- Whatever the answers and the tables are, the plan keeps the promise.
def Plan.Keeps (promise : Promise) : Plan → Prop
  | .done outcome => promise.ends outcome
  | .wait _ rest => rest.Keeps promise
  | .ask query next => promise.asks query ∧ ∀ answer, (next answer).Keeps promise
  | .send errands next =>
      (∀ errand ∈ errands, promise.sends errand) ∧ ∀ tables, (next tables).Keeps promise

theorem Plan.keeps_of_free {promise : Promise} (sends : ∀ errand, promise.sends errand)
    (asks : ∀ query, promise.asks query) (ends : ∀ outcome, promise.ends outcome) (plan : Plan) :
    plan.Keeps promise := by
  induction plan with
  | done outcome => exact ends outcome
  | wait delay rest ih => exact ih
  | ask query next ih => exact ⟨asks query, ih⟩
  | send errands next ih => exact ⟨fun errand _ => sends errand, ih⟩

structure Promise.Kept (promise : Promise) (host : Host) (request : Request) : Prop where
  carried : ∀ errand worker, promise.sends errand →
    host.registry.worker? errand.task = some worker → (errand.plan request worker).Keeps promise
  recalled : ∀ table, promise.ends (.ok [table])
  late : ∀ task, promise.ends (.error (.timedOut task host.timeout))

def Host.Honors (host : Host) (request : Request) (promises : Option Entry → Promise) : Prop :=
  ∀ (errand : Errand) (worker : Worker) (deadline : Nat),
    host.registry.worker? errand.task = some worker →
      (errand.plan request worker).Keeps (promises (some ⟨errand.task, deadline, errand.isFetch⟩))

namespace Activity

inductive Keeps (promise : Promise) : Activity → Prop
  | settled {outcome : Outcome} (ends : promise.ends outcome) : Keeps promise (.settled outcome)
  | pending {errand : Errand} (sends : promise.sends errand) : Keeps promise (.pending errand)
  | sleeping {entry : Option Entry} {time : Nat} {rest : Plan}
      (entered : ∀ name ∈ held entry, promise.sends (.fetch name)) (keeps : rest.Keeps promise) :
      Keeps promise (.sleeping entry time rest)
  | joining {entry : Option Entry} {parts : List Activity} {next : List Table → Plan}
      (entered : ∀ name ∈ held entry, promise.sends (.fetch name))
      (all : ∀ part ∈ parts, Keeps promise part) (keeps : ∀ tables, (next tables).Keeps promise) :
      Keeps promise (.joining entry parts next)

variable {host : Host} {request : Request} {promise : Promise}

theorem forall_mem_replaced {holds : Activity → Prop} {before after : List Activity}
    {activity later : Activity} (all : ∀ part ∈ before ++ activity :: after, holds part)
    (here : holds later) : ∀ part ∈ before ++ later :: after, holds part := by
  intro part member
  rcases List.mem_append.mp member with ahead | rest
  · exact all part (List.mem_append_left _ ahead)
  · rcases List.mem_cons.mp rest with same | behind
    · exact same ▸ here
    · exact all part (by simp [behind])

mutual
theorem Keeps.holdings {activity : Activity} (keeps : activity.Keeps promise) (name : String)
    (own : name ∈ activity.holdings) : promise.sends (.fetch name) := by
  cases activity with
  | settled outcome => simp [Activity.holdings] at own
  | pending errand => simp [Activity.holdings] at own
  | sleeping entry time rest =>
      cases keeps with
      | sleeping entered _ => exact entered name own
  | joining entry parts next =>
      cases keeps with
      | joining entered all _ =>
          rcases List.mem_append.mp own with here | below
          · exact entered name here
          · exact Keeps.holdingsOfAll all name below

theorem Keeps.holdingsOfAll {parts : List Activity} (all : ∀ part ∈ parts, part.Keeps promise)
    (name : String) (own : name ∈ Activity.holdingsOfAll parts) : promise.sends (.fetch name) := by
  cases parts with
  | nil => simp [Activity.holdingsOfAll] at own
  | cons first rest =>
      rcases List.mem_append.mp own with here | behind
      · exact Keeps.holdings (all first List.mem_cons_self) name here
      · exact Keeps.holdingsOfAll (fun part member => all part (List.mem_cons_of_mem _ member)) name behind
end

theorem Keeps.start {plan : Plan} (keeps : plan.Keeps promise) (time : Nat) :
    Keeps promise (.sleeping none time plan) := by
  refine .sleeping ?_ keeps
  intro name own
  simp [held] at own

theorem Keeps.part {entry : Option Entry} {before after : List Activity} {activity : Activity}
    {next : List Table → Plan} (keeps : Keeps promise (.joining entry (before ++ activity :: after) next)) :
    activity.Keeps promise := by
  cases keeps with
  | joining _ all _ => exact all activity (by simp)

theorem sends_of_held {errand : Errand} {deadline : Nat} (sends : promise.sends errand) (name : String)
    (own : name ∈ held (some ⟨errand.task, deadline, errand.isFetch⟩)) : promise.sends (.fetch name) :=
  fetch_of_held own ▸ sends

theorem Step.keeps {activity later : Activity} {machine after : Machine} (kept : promise.Kept host request)
    (step : Step host request activity machine later after)
    (refused : ∀ errand, promise.sends errand →
      (errand.isFetch = true → machine.memo.IsFree errand.task) →
      host.registry.worker? errand.task = none → promise.ends (.error (.taskNotFound errand.task)))
    (keeps : activity.Keeps promise) : later.Keeps promise := by
  induction step with
  | refuse errand machine free missing =>
      cases keeps with
      | pending sends => exact .settled (refused errand sends free missing)
  | begin errand worker machine free found =>
      cases keeps with
      | pending sends => exact .sleeping (sends_of_held sends) (kept.carried errand worker sends found)
  | reuse task table machine filled => exact .settled (kept.recalled table)
  | wait entry time delay rest machine awake =>
      cases keeps with
      | sleeping entered keeps => exact .sleeping entered keeps
  | ask entry time query next machine awake =>
      cases keeps with
      | sleeping entered keeps => exact .sleeping entered (keeps.2 _)
  | send entry time errands next machine awake =>
      cases keeps with
      | sleeping entered keeps =>
          refine .joining entered ?_ keeps.2
          intro part member
          obtain ⟨errand, sent, rfl⟩ := List.mem_map.mp member
          exact .pending (keeps.1 errand sent)
  | finish entry time outcome machine awake =>
      cases keeps with
      | sleeping entered keeps => exact .settled keeps
  | proceed entry results next machine =>
      cases keeps with
      | joining entered all keeps => exact .sleeping entered (keeps _)
  | abort entry parts next failure machine failed =>
      cases keeps with
      | joining entered all keeps =>
          cases all _ failed with
          | settled ends => exact .settled ends
  | expire activity entry machine running due => exact .settled (kept.late entry.task)
  | part entry before after next step ih =>
      cases keeps with
      | joining entered all keeps =>
          have here := ih refused (all _ (by simp))
          exact .joining entered (forall_mem_replaced all here) keeps

theorem Step.asks {activity later : Activity} {machine after : Machine}
    (step : Step host request activity machine later after) (keeps : activity.Keeps promise) :
    after.calls = machine.calls ∨
      ∃ query, promise.asks query ∧ after.calls = machine.calls ++ [query] := by
  induction step with
  | refuse errand machine => exact .inl (reserve_memoOnly errand .vacant machine).calls
  | begin errand worker machine => exact .inl (reserve_memoOnly errand .busy machine).calls
  | reuse | wait | send | proceed => exact .inl rfl
  | ask entry time query next machine =>
      cases keeps with
      | sleeping entered keeps => exact .inr ⟨query, keeps.1, rfl⟩
  | finish entry time outcome machine => exact .inl (close_memoOnly entry outcome machine).calls
  | abort entry parts next failure machine =>
      rw [close_dropAll entry parts next failure machine]
      exact .inl (drop_memoOnly (.joining entry parts next) machine).calls
  | expire activity entry machine => exact .inl (drop_memoOnly activity machine).calls
  | part _ _ _ _ _ ih => exact ih keeps.part

theorem Step.touches {activity later : Activity} {machine after : Machine}
    (step : Step host request activity machine later after) (keeps : activity.Keeps promise)
    (name : String) : after.memo.slot? name = machine.memo.slot? name ∨ promise.sends (.fetch name) := by
  have reserved (errand : Errand) (slot : Slot) (machine : Machine) (sends : promise.sends errand) :
      (machine.reserve errand slot).memo.slot? name = machine.memo.slot? name ∨
        promise.sends (.fetch name) := by
    rw [Machine.slot?_reserve]
    by_cases own : errand.isFetch = true ∧ name = errand.task
    · have holds : name ∈ held (some ⟨errand.task, 0, errand.isFetch⟩) := by simp [held, own]
      exact .inr (sends_of_held sends name holds)
    · exact .inl (if_neg own)
  have dropped (activity : Activity) (machine : Machine) (keeps : activity.Keeps promise) :
      (drop activity machine).memo.slot? name = machine.memo.slot? name ∨ promise.sends (.fetch name) := by
    by_cases own : name ∈ holdings activity
    · exact .inr (keeps.holdings name own)
    · exact .inl (by rw [slot?_drop, if_neg own])
  induction step with
  | refuse errand machine =>
      cases keeps with
      | pending sends => exact reserved errand .vacant machine sends
  | begin errand worker machine =>
      cases keeps with
      | pending sends => exact reserved errand .busy machine sends
  | reuse | wait | ask | send | proceed => exact .inl rfl
  | finish entry time outcome machine =>
      by_cases own : name ∈ held entry
      · exact .inr (keeps.holdings name own)
      · exact .inl (slot?_close_of_apart own outcome machine)
  | abort entry parts next failure machine =>
      rw [close_dropAll entry parts next failure machine]
      exact dropped (.joining entry parts next) machine keeps
  | expire activity entry machine => exact dropped activity machine keeps
  | part _ _ _ _ _ ih => exact ih keeps.part

section Run

variable {steps : Nat} {activity later : Activity} {machine after : Machine}
  (kept : promise.Kept host request) (run : Run host request steps activity machine later after)
include kept run

theorem Run.keeps (owns : activity.Owns machine)
    (refused : ∀ errand between, machine.Retains between → promise.sends errand →
      (errand.isFetch = true → between.memo.IsFree errand.task) →
      host.registry.worker? errand.task = none → promise.ends (.error (.taskNotFound errand.task)))
    (keeps : activity.Keeps promise) : later.Keeps promise := by
  induction run with
  | stay => exact keeps
  | idle idled rest ih =>
      refine ih (owns.idled idled) ?_ keeps
      intro errand between retains
      exact refused errand between fun name table filled => retains name table (by rw [idled.memo]; exact filled)
  | step first rest ih =>
      have here := first.keeps kept (fun errand => refused errand _ fun _ _ filled => filled) keeps
      refine ih (first.owns owns) ?_ here
      intro errand between retains
      exact refused errand between fun name table filled =>
        retains name table (first.keeps_filled owns filled)

variable (answers : ∀ task, promise.ends (.error (.taskNotFound task))) (keeps : activity.Keeps promise)
include answers keeps

theorem Run.asks :
    ∃ asked, after.calls = machine.calls ++ asked ∧ ∀ query ∈ asked, promise.asks query := by
  induction run with
  | stay => exact ⟨[], by simp, by simp⟩
  | idle idled rest ih => exact idled.calls ▸ ih keeps
  | step first rest ih =>
      obtain ⟨asked, calls, allowed⟩ := ih (first.keeps kept (fun errand _ _ _ => answers errand.task) keeps)
      rcases first.asks keeps with same | ⟨query, asks, one⟩
      · exact ⟨asked, same ▸ calls, allowed⟩
      · refine ⟨query :: asked, by simp [calls, one], ?_⟩
        intro other member
        rcases List.mem_cons.mp member with equal | behind
        · exact equal ▸ asks
        · exact allowed other behind

theorem Run.touches (name : String) :
    after.memo.slot? name = machine.memo.slot? name ∨ promise.sends (.fetch name) := by
  induction run with
  | stay => exact .inl rfl
  | idle idled rest ih => exact idled.memo ▸ ih keeps
  | step first rest ih =>
      rcases ih (first.keeps kept (fun errand _ _ _ => answers errand.task) keeps) with same | sends
      · rcases first.touches keeps name with equal | sends
        · exact .inl (same.trans equal)
        · exact .inr sends
      · exact .inr sends

end Run

/-! What each task in progress keeps to by itself. -/

def SentBy (sends : Errand → Prop) : Activity → Prop
  | settled _ => True
  | pending errand => sends errand
  | sleeping entry _ _ | joining entry _ _ =>
      ∃ errand deadline, sends errand ∧ entry = some ⟨errand.task, deadline, errand.isFetch⟩

inductive Abides (promises : Option Entry → Promise) : Activity → Prop
  | settled (outcome : Outcome) : Abides promises (.settled outcome)
  | pending (errand : Errand) : Abides promises (.pending errand)
  | sleeping {entry : Option Entry} {time : Nat} {rest : Plan} (keeps : rest.Keeps (promises entry)) :
      Abides promises (.sleeping entry time rest)
  | joining {entry : Option Entry} {parts : List Activity} {next : List Table → Plan}
      (sent : ∀ part ∈ parts, part.SentBy (promises entry).sends)
      (all : ∀ part ∈ parts, Abides promises part)
      (keeps : ∀ tables, (next tables).Keeps (promises entry)) :
      Abides promises (.joining entry parts next)

variable {promises : Option Entry → Promise}

theorem Abides.inside {inner whole : Activity} (abides : whole.Abides promises) (inside : Inside inner whole) :
    inner.Abides promises := by
  induction inside with
  | here => exact abides
  | part member _ ih =>
      cases abides with
      | joining _ all _ => exact ih (all _ member)

theorem Step.sentBy {sends : Errand → Prop} {activity later : Activity} {machine after : Machine}
    (step : Step host request activity machine later after) (sent : activity.SentBy sends) :
    later.SentBy sends := by
  cases step with
  | refuse | reuse | finish | abort | expire => trivial
  | begin errand worker machine => exact ⟨errand, machine.clock + host.timeout, sent, rfl⟩
  | wait | ask | send | proceed | part => exact sent

theorem Step.abides (honors : host.Honors request promises) {activity later : Activity}
    {machine after : Machine} (step : Step host request activity machine later after)
    (abides : activity.Abides promises) : later.Abides promises := by
  induction step with
  | refuse | reuse | finish | abort | expire => exact .settled _
  | begin errand worker machine free found => exact .sleeping (honors errand worker _ found)
  | wait =>
      cases abides with
      | sleeping keeps => exact .sleeping keeps
  | ask =>
      cases abides with
      | sleeping keeps => exact .sleeping (keeps.2 _)
  | send entry time errands next machine =>
      cases abides with
      | sleeping keeps =>
          refine .joining ?_ ?_ keeps.2
          · intro part member
            obtain ⟨errand, sent, rfl⟩ := List.mem_map.mp member
            exact keeps.1 errand sent
          · intro part member
            obtain ⟨errand, -, rfl⟩ := List.mem_map.mp member
            exact .pending errand
  | proceed =>
      cases abides with
      | joining sent all keeps => exact .sleeping (keeps _)
  | part entry before after next step ih =>
      cases abides with
      | joining sent all keeps =>
          have here := ih (all _ (by simp))
          have still := step.sentBy (sent _ (by simp))
          exact .joining (forall_mem_replaced sent still) (forall_mem_replaced all here) keeps

theorem Run.abides (honors : host.Honors request promises) {steps : Nat} {activity later : Activity}
    {machine after : Machine} (run : Run host request steps activity machine later after)
    (abides : activity.Abides promises) : later.Abides promises := by
  induction run with
  | stay => exact abides
  | idle idled rest ih => exact ih abides
  | step first rest ih => exact ih (first.abides honors abides)

theorem Run.fills (honors : host.Honors request promises) {steps : Nat} {activity later : Activity}
    {machine after : Machine} (run : Run host request steps activity machine later after)
    (abides : activity.Abides promises) {name : String} {table : Table}
    (filled : after.memo.slot? name = some (.filled table)) :
    machine.memo.slot? name = some (.filled table) ∨
      ∃ entry, name ∈ held entry ∧ (promises entry).ends (.ok [table]) := by
  induction run with
  | stay => exact .inl filled
  | idle idled rest ih => exact idled.memo ▸ ih abides filled
  | step first rest ih =>
      refine (ih (first.abides honors abides) filled).elim ?_ .inr
      intro between
      refine (first.fills between).imp id ?_
      rintro ⟨entry, time, inside, own⟩
      cases abides.inside inside with
      | sleeping keeps => exact ⟨entry, own, keeps⟩

end Activity

end Curator
