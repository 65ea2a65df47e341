import Curator.Proofs.Engine.Step
/-!
Who produces which table. The tasks in progress whose tables are to be kept own their slots: as long
as every busy slot has one owner, every step leaves it so, and no step takes a table out of a slot.
-/

set_option autoImplicit false

namespace Curator

namespace Machine

def owned (machine : Machine) (task : String) : Nat := if machine.memo.isBusy task then 1 else 0

theorem owned_of_busy {machine : Machine} {task : String} (busy : machine.memo.slot? task = some .busy) :
    machine.owned task = 1 := by
  simp [owned, Memo.isBusy, busy]

theorem owned_of_not_busy {machine : Machine} {task : String}
    (idle : machine.memo.slot? task ≠ some .busy) : machine.owned task = 0 := by
  have notBusy : machine.memo.isBusy task = false := by
    rw [Memo.isBusy]
    split
    · exact absurd ‹_› idle
    · rfl
  simp [owned, notBusy]

theorem owned_congr {machine after : Machine} {task : String}
    (same : after.memo.slot? task = machine.memo.slot? task) : after.owned task = machine.owned task := by
  unfold owned Memo.isBusy
  rw [same]

theorem slot?_mark (machine : Machine) (name task : String) (slot : Slot) :
    (machine.mark task slot).memo.slot? name =
      if name = task then some slot else machine.memo.slot? name := by
  by_cases same : name = task
  · rw [if_pos same, same]
    exact Memo.slot?_put_self task slot machine.memo
  · rw [if_neg same]
    exact Memo.slot?_put_of_ne slot machine.memo same

theorem slot?_reserve (machine : Machine) (errand : Errand) (name : String) (slot : Slot) :
    (machine.reserve errand slot).memo.slot? name =
      if errand.isFetch = true ∧ name = errand.task then some slot else machine.memo.slot? name := by
  by_cases fetches : errand.isFetch = true
  · simp [reserve, fetches, slot?_mark]
  · simp [reserve, fetches]

def Retains (machine after : Machine) : Prop :=
  ∀ name table, machine.memo.slot? name = some (.filled table) →
    after.memo.slot? name = some (.filled table)

end Machine

namespace Activity

def held : Option Entry → List String
  | some ⟨task, _, true⟩ => [task]
  | _ => []

mutual
def holdings : Activity → List String
  | settled _ | pending _ => []
  | sleeping entry _ _ => held entry
  | joining entry parts _ => held entry ++ holdingsOfAll parts

def holdingsOfAll : List Activity → List String
  | [] => []
  | first :: rest => holdings first ++ holdingsOfAll rest
end

theorem holdingsOfAll_append (before after : List Activity) :
    holdingsOfAll (before ++ after) = holdingsOfAll before ++ holdingsOfAll after := by
  induction before with
  | nil => rfl
  | cons first rest ih => simp [holdingsOfAll, ih]

theorem holdingsOfAll_of_idle {parts : List Activity} (idle : ∀ part ∈ parts, holdings part = []) :
    holdingsOfAll parts = [] := by
  induction parts with
  | nil => rfl
  | cons first rest ih =>
      rw [holdingsOfAll, idle first List.mem_cons_self,
        ih fun part member => idle part (List.mem_cons_of_mem _ member)]
      rfl

theorem slot?_vacate (entry : Option Entry) (machine : Machine) (name : String) :
    (vacate entry machine).memo.slot? name =
      if name ∈ held entry then some .vacant else machine.memo.slot? name := by
  rcases entry with _ | ⟨task, deadline, _ | _⟩
  · simp [vacate, held]
  · simp [vacate, held]
  · simp [vacate, held, Machine.slot?_mark]

mutual
theorem slot?_drop (activity : Activity) (machine : Machine) (name : String) :
    (drop activity machine).memo.slot? name =
      if name ∈ holdings activity then some .vacant else machine.memo.slot? name := by
  cases activity with
  | settled outcome => simp [drop, holdings]
  | pending errand => simp [drop, holdings]
  | sleeping entry time rest => exact slot?_vacate entry machine name
  | joining entry parts next =>
      rw [drop, slot?_vacate, slot?_dropAll parts machine name, holdings]
      by_cases own : name ∈ held entry <;> simp [own]

theorem slot?_dropAll (parts : List Activity) (machine : Machine) (name : String) :
    (dropAll parts machine).memo.slot? name =
      if name ∈ holdingsOfAll parts then some .vacant else machine.memo.slot? name := by
  cases parts with
  | nil => simp [dropAll, holdingsOfAll]
  | cons first rest =>
      rw [dropAll, slot?_dropAll rest (drop first machine) name, slot?_drop first machine name, holdingsOfAll]
      by_cases own : name ∈ holdings first <;> by_cases others : name ∈ holdingsOfAll rest <;>
        simp [own, others]
end

theorem slot?_close (entry : Option Entry) (outcome : Outcome) (machine : Machine) (name : String) :
    (name ∉ held entry ∧ (close entry outcome machine).2.memo.slot? name = machine.memo.slot? name) ∨
      (name ∈ held entry ∧ (close entry outcome machine).2.memo.slot? name = some .vacant) ∨
      (name ∈ held entry ∧ ∃ table, outcome = .ok [table] ∧
        (close entry outcome machine).2.memo.slot? name = some (.filled table)) := by
  by_cases own : name ∈ held entry
  · simp only [close]
    split
    · rename_i task deadline table
      have same : name = task := by simpa [held] using own
      exact .inr (.inr ⟨own, table, rfl, by rw [Machine.slot?_mark, if_pos same]⟩)
    · exact .inr (.inl ⟨own, by rw [slot?_vacate, if_pos own]⟩)
  · refine .inl ⟨own, ?_⟩
    simp only [close]
    split
    · rename_i task deadline table
      have different : name ≠ task := by simpa [held] using own
      rw [Machine.slot?_mark, if_neg different]
    · rw [slot?_vacate, if_neg own]

theorem slot?_close_of_held {entry : Option Entry} {name : String} (own : name ∈ held entry)
    (outcome : Outcome) (machine : Machine) :
    (close entry outcome machine).2.memo.slot? name ≠ some .busy := by
  rcases slot?_close entry outcome machine name with ⟨apart, -⟩ | ⟨-, vacant⟩ | ⟨-, table, -, filled⟩
  · exact absurd own apart
  · simp [vacant]
  · simp [filled]

theorem slot?_close_of_apart {entry : Option Entry} {name : String} (apart : name ∉ held entry)
    (outcome : Outcome) (machine : Machine) :
    (close entry outcome machine).2.memo.slot? name = machine.memo.slot? name := by
  rcases slot?_close entry outcome machine name with ⟨-, same⟩ | ⟨own, -⟩ | ⟨own, -⟩
  · exact same
  · exact absurd own apart
  · exact absurd own apart

theorem fetch_of_held {errand : Errand} {deadline : Nat} {name : String}
    (own : name ∈ held (some ⟨errand.task, deadline, errand.isFetch⟩)) : errand = .fetch name := by
  cases errand with
  | run task input => simp [held, Errand.isFetch] at own
  | process task => simp [held, Errand.isFetch] at own
  | fetch task =>
      have same : name = task := by simpa [held, Errand.isFetch, Errand.task] using own
      rw [same]

inductive Inside : Activity → Activity → Prop
  | here (activity : Activity) : Inside activity activity
  | part {inner part : Activity} {entry : Option Entry} {parts : List Activity}
      {next : List Table → Plan} (member : part ∈ parts) (inside : Inside inner part) :
      Inside inner (.joining entry parts next)

-- Every slot that an activity is to fill is busy, and it fills none twice.
def Owns (activity : Activity) (machine : Machine) : Prop :=
  ∀ name, (holdings activity).count name ≤ machine.owned name

theorem Owns.busy {activity : Activity} {machine : Machine} (owns : activity.Owns machine) {name : String}
    (member : name ∈ holdings activity) : machine.memo.slot? name = some .busy := by
  have positive := List.count_pos_iff.mpr member
  have bound := owns name
  apply Classical.byContradiction
  intro idle
  rw [Machine.owned_of_not_busy idle] at bound
  omega

theorem Owns.part {entry : Option Entry} {before after : List Activity} {activity : Activity}
    {next : List Table → Plan} {machine : Machine}
    (owns : Owns (.joining entry (before ++ activity :: after) next) machine) : activity.Owns machine := by
  intro name
  have whole := owns name
  simp only [holdings, holdingsOfAll_append, holdingsOfAll, List.count_append] at whole
  omega

theorem Owns.released {activity : Activity} {machine after : Machine} (owns : activity.Owns machine)
    (name : String)
    (released : name ∈ holdings activity → after.memo.slot? name ≠ some .busy)
    (kept : name ∉ holdings activity → after.memo.slot? name = machine.memo.slot? name) :
    machine.owned name = (holdings activity).count name + after.owned name := by
  by_cases member : name ∈ holdings activity
  · have positive := List.count_pos_iff.mpr member
    have bound := owns name
    rw [Machine.owned_of_busy (owns.busy member)] at bound ⊢
    rw [Machine.owned_of_not_busy (released member)]
    omega
  · rw [List.count_eq_zero.mpr member, Machine.owned_congr (kept member), Nat.zero_add]

theorem Owns.dropped {activity : Activity} {machine : Machine} (owns : activity.Owns machine)
    (name : String) :
    machine.owned name = (holdings activity).count name + (drop activity machine).owned name := by
  apply owns.released name
  · intro own
    simp [slot?_drop, own]
  · intro apart
    rw [slot?_drop, if_neg apart]

variable {host : Host} {request : Request}

theorem Step.slot?_change {activity later : Activity} {machine after : Machine}
    (step : Step host request activity machine later after) (name : String) :
    after.memo.slot? name = machine.memo.slot? name ∨
      (machine.memo.IsFree name ∧
        (after.memo.slot? name = some .vacant ∨ after.memo.slot? name = some .busy)) ∨
      (name ∈ holdings activity ∧ (after.memo.slot? name = some .vacant ∨
        ∃ table, after.memo.slot? name = some (.filled table))) := by
  have reserved (errand : Errand) (machine : Machine) (slot : Slot)
      (free : errand.isFetch = true → machine.memo.IsFree errand.task) :
      (machine.reserve errand slot).memo.slot? name = machine.memo.slot? name ∨
        (machine.memo.IsFree name ∧ (machine.reserve errand slot).memo.slot? name = some slot) := by
    rw [Machine.slot?_reserve]
    by_cases own : errand.isFetch = true ∧ name = errand.task
    · exact .inr ⟨own.2 ▸ free own.1, if_pos own⟩
    · exact .inl (if_neg own)
  have dropped (activity : Activity) (machine : Machine) :
      (drop activity machine).memo.slot? name = machine.memo.slot? name ∨
        (machine.memo.IsFree name ∧ ((drop activity machine).memo.slot? name = some .vacant ∨
          (drop activity machine).memo.slot? name = some .busy)) ∨
        (name ∈ holdings activity ∧ ((drop activity machine).memo.slot? name = some .vacant ∨
          ∃ table, (drop activity machine).memo.slot? name = some (.filled table))) := by
    rw [slot?_drop]
    by_cases own : name ∈ holdings activity
    · exact .inr (.inr ⟨own, .inl (if_pos own)⟩)
    · exact .inl (if_neg own)
  induction step with
  | refuse errand machine free =>
      exact (reserved errand machine .vacant free).imp id fun ⟨free, vacant⟩ => .inl ⟨free, .inl vacant⟩
  | begin errand worker machine free =>
      exact (reserved errand machine .busy free).imp id fun ⟨free, busy⟩ => .inl ⟨free, .inr busy⟩
  | reuse | wait | ask | send | proceed => exact .inl rfl
  | finish entry time outcome machine =>
      rcases slot?_close entry outcome machine name with ⟨-, same⟩ | ⟨own, vacant⟩ | ⟨own, table, -, filled⟩
      · exact .inl same
      · exact .inr (.inr ⟨own, .inl vacant⟩)
      · exact .inr (.inr ⟨own, .inr ⟨table, filled⟩⟩)
  | abort entry parts next failure machine =>
      rw [close_dropAll entry parts next failure machine]
      exact dropped (.joining entry parts next) machine
  | expire activity entry machine => exact dropped activity machine
  | part entry before after next _ ih =>
      refine ih.imp id (Or.imp id (And.imp_left ?_))
      intro own
      simp [holdings, holdingsOfAll_append, holdingsOfAll, own]

theorem Step.fills {activity later : Activity} {machine after : Machine}
    (step : Step host request activity machine later after) {name : String} {table : Table}
    (filled : after.memo.slot? name = some (.filled table)) :
    machine.memo.slot? name = some (.filled table) ∨
      ∃ entry time, Inside (.sleeping entry time (.done (.ok [table]))) activity ∧ name ∈ held entry := by
  have reserved (errand : Errand) (slot : Slot) (machine : Machine) (empty : slot ≠ .filled table)
      (filled : (machine.reserve errand slot).memo.slot? name = some (.filled table)) :
      machine.memo.slot? name = some (.filled table) := by
    rw [Machine.slot?_reserve] at filled
    split at filled
    · exact absurd (Option.some.inj filled) empty
    · exact filled
  have dropped (activity : Activity) (machine : Machine)
      (filled : (drop activity machine).memo.slot? name = some (.filled table)) :
      machine.memo.slot? name = some (.filled table) := by
    rw [slot?_drop] at filled
    split at filled
    · cases filled
    · exact filled
  induction step with
  | refuse errand machine => exact .inl (reserved errand .vacant machine (by simp) filled)
  | begin errand worker machine => exact .inl (reserved errand .busy machine (by simp) filled)
  | reuse | wait | ask | send | proceed => exact .inl filled
  | finish entry time outcome machine =>
      rcases slot?_close entry outcome machine name with
        ⟨-, same⟩ | ⟨-, vacant⟩ | ⟨own, produced, rfl, full⟩
      · exact .inl (same ▸ filled)
      · simp [vacant] at filled
      · have equal : produced = table := by simpa [full] using filled
        exact .inr ⟨entry, time, equal ▸ .here _, own⟩
  | abort entry parts next failure machine =>
      rw [close_dropAll entry parts next failure machine] at filled
      exact .inl (dropped (.joining entry parts next) machine filled)
  | expire activity entry machine => exact .inl (dropped activity machine filled)
  | part entry before after next _ ih =>
      refine (ih filled).imp id ?_
      rintro ⟨inner, time, inside, own⟩
      exact ⟨inner, time, .part (by simp) inside, own⟩

theorem Step.keeps_filled {activity later : Activity} {machine after : Machine}
    (step : Step host request activity machine later after) (owns : activity.Owns machine)
    {name : String} {table : Table} (filled : machine.memo.slot? name = some (.filled table)) :
    after.memo.slot? name = some (.filled table) := by
  rcases step.slot?_change name with same | ⟨free, -⟩ | ⟨own, -⟩
  · exact same.trans filled
  · exact absurd filled (free.not_filled table)
  · simp [owns.busy own] at filled

theorem Step.balanced {activity later : Activity} {machine after : Machine}
    (step : Step host request activity machine later after) (owns : activity.Owns machine) (name : String) :
    (holdings later).count name + machine.owned name =
      (holdings activity).count name + after.owned name := by
  induction step with
  | refuse errand machine free =>
      have same : (machine.reserve errand .vacant).owned name = machine.owned name := by
        by_cases own : errand.isFetch = true ∧ name = errand.task
        · rw [Machine.owned_of_not_busy, Machine.owned_of_not_busy]
          · exact own.2 ▸ (free own.1).not_busy
          · simp [Machine.slot?_reserve, own]
        · exact Machine.owned_congr (by rw [Machine.slot?_reserve, if_neg own])
      rw [same]
      rfl
  | begin errand worker machine free =>
      -- The slot was free, and from now on it has the one owner that it ought to have.
      by_cases own : errand.isFetch = true ∧ name = errand.task
      · obtain ⟨fetches, rfl⟩ := own
        have before : machine.owned errand.task = 0 := Machine.owned_of_not_busy (free fetches).not_busy
        have after : (machine.reserve errand .busy).owned errand.task = 1 :=
          Machine.owned_of_busy (by simp [Machine.slot?_reserve, fetches])
        simp [before, after, holdings, held, fetches]
      · have same : (machine.reserve errand .busy).owned name = machine.owned name :=
          Machine.owned_congr (by rw [Machine.slot?_reserve, if_neg own])
        have apart : name ∉ held (some ⟨errand.task, machine.clock + host.timeout, errand.isFetch⟩) := by
          intro holds
          rw [fetch_of_held holds] at own
          exact own ⟨rfl, rfl⟩
        simp [same, holdings, List.count_eq_zero.mpr apart]
  | reuse | wait | ask => rfl
  | send entry time errands next machine =>
      have none : holdingsOfAll (errands.map Activity.pending) = [] :=
        holdingsOfAll_of_idle fun part member => by
          obtain ⟨errand, -, rfl⟩ := List.mem_map.mp member
          rfl
      simp [holdings, none]
  | proceed entry results next machine =>
      have none : holdingsOfAll (results.map fun tables => .settled (.ok tables)) = [] :=
        holdingsOfAll_of_idle fun part member => by
          obtain ⟨tables, -, rfl⟩ := List.mem_map.mp member
          rfl
      simp [holdings, none]
  | finish entry time outcome machine =>
      rw [holdings, List.count_nil, Nat.zero_add]
      exact owns.released name (fun own => slot?_close_of_held own outcome machine)
        fun apart => slot?_close_of_apart apart outcome machine
  | abort entry parts next failure machine =>
      rw [holdings, List.count_nil, Nat.zero_add, close_dropAll entry parts next failure machine]
      exact owns.dropped name
  | expire activity entry machine =>
      rw [holdings, List.count_nil, Nat.zero_add]
      exact owns.dropped name
  | part entry before after next _ ih =>
      have inner := ih owns.part
      simp only [holdings, holdingsOfAll_append, holdingsOfAll, List.count_append]
      omega

theorem Step.owns {activity later : Activity} {machine after : Machine}
    (step : Step host request activity machine later after) (owns : activity.Owns machine) :
    later.Owns after := by
  intro name
  have balanced := step.balanced owns name
  have before := owns name
  omega

theorem Owns.idled {activity : Activity} {machine after : Machine} (owns : activity.Owns machine)
    (idled : machine.Idled after) : activity.Owns after :=
  fun name => Nat.le_trans (owns name) (Nat.le_of_eq (Machine.owned_congr (by rw [idled.memo])).symm)

theorem Run.retains {steps : Nat} {activity later : Activity} {machine after : Machine}
    (run : Run host request steps activity machine later after) (owns : activity.Owns machine) :
    machine.Retains after := by
  induction run with
  | stay => exact fun _ _ filled => filled
  | idle idled _ ih =>
      intro name table filled
      exact ih (owns.idled idled) name table (by rw [idled.memo]; exact filled)
  | step first _ ih => exact fun name table filled => ih (first.owns owns) name table (first.keeps_filled owns filled)

def Accounted (activity : Activity) (machine : Machine) : Prop :=
  ∀ name, (holdings activity).count name = machine.owned name

theorem Accounted.owns {activity : Activity} {machine : Machine} (accounted : activity.Accounted machine) :
    activity.Owns machine := fun name => Nat.le_of_eq (accounted name)

theorem accounted_start (time : Nat) (plan : Plan) {machine : Machine}
    (idle : ∀ name, machine.memo.slot? name ≠ some .busy) :
    Accounted (.sleeping none time plan) machine :=
  fun name => by simp [holdings, held, Machine.owned_of_not_busy (idle name)]

theorem Run.accounted {steps : Nat} {activity later : Activity} {machine after : Machine}
    (run : Run host request steps activity machine later after) (accounted : activity.Accounted machine) :
    later.Accounted after := by
  induction run with
  | stay => exact accounted
  | idle idled _ ih =>
      exact ih fun name => (accounted name).trans (Machine.owned_congr (by rw [idled.memo])).symm
  | step first _ ih =>
      apply ih
      intro name
      have balanced := first.balanced accounted.owns name
      have before := accounted name
      omega

end Activity

end Curator
