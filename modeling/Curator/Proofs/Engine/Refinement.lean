import Curator.Proofs.Engine.Meaning
/-!
What is in progress computes what it means. A table in the memo is what its errand means, an
activity that has got so far still means what it meant at its beginning, and what has settled
reports that, unless time ran out. Every step keeps this, whoever takes it.
-/

set_option autoImplicit false

namespace Curator

def Failure.isTimeout : Failure → Bool
  | .timedOut _ _ => true
  | _ => false

structure Outcome.Reports (reported meant : Outcome) : Prop where
  exact : ∀ tables, reported = .ok tables → meant = .ok tables
  fails : ∀ failure, reported = .error failure → failure.isTimeout = false →
    ∃ cause, meant = .error cause

namespace Outcome

theorem Reports.refl (outcome : Outcome) : Reports outcome outcome :=
  ⟨fun _ same => same, fun failure same _ => ⟨failure, same⟩⟩

theorem Reports.timedOut (task : String) (limit : Nat) (meant : Outcome) :
    Reports (.error (.timedOut task limit)) meant :=
  ⟨by rintro _ ⟨⟩, by rintro _ ⟨⟩ ⟨⟩⟩

def gather : List Outcome → Outcome
  | [] => .ok []
  | .error failure :: _ => .error failure
  | .ok tables :: rest => (gather rest).map (tables ++ ·)

theorem gather_map (perform : Errand → Outcome) (errands : List Errand) :
    gather (errands.map perform) = Plan.inTurn perform errands := by
  induction errands with
  | nil => rfl
  | cons head tail ih =>
      rw [List.map_cons, Plan.inTurn]
      cases perform head with
      | error failure => rfl
      | ok tables => rw [gather, ih]

theorem gather_ok (results : List (List Table)) : gather (results.map .ok) = .ok results.flatten := by
  induction results with
  | nil => rfl
  | cons head tail ih => rw [List.map_cons, gather, ih, List.flatten_cons]; rfl

theorem gather_error {outcomes : List Outcome} {failure : Failure} (member : .error failure ∈ outcomes) :
    ∃ cause, gather outcomes = .error cause := by
  induction outcomes with
  | nil => cases member
  | cons head tail ih =>
      cases head with
      | error first => exact ⟨first, rfl⟩
      | ok tables =>
          have behind : .error failure ∈ tail := by simpa using member
          obtain ⟨cause, same⟩ := ih behind
          exact ⟨cause, by rw [gather, same]; rfl⟩

def thenMeans (answers : Answers) (meaning : Errand → Outcome) (next : List Table → Plan) :
    Outcome → Outcome
  | .error failure => .error failure
  | .ok tables => (next tables).evaluate answers meaning

end Outcome

namespace Activity

variable (answers : Answers) (meaning : Errand → Outcome)

inductive Computes : Activity → Outcome → Prop
  | settled {reported meant : Outcome} (reports : reported.Reports meant) : Computes (.settled reported) meant
  | pending (errand : Errand) : Computes (.pending errand) (meaning errand)
  | sleeping {entry : Option Entry} {time : Nat} {rest : Plan} {meant : Outcome}
      (entered : ∀ name ∈ held entry, meaning (.fetch name) = meant)
      (means : rest.evaluate answers meaning = meant) : Computes (.sleeping entry time rest) meant
  | joining {entry : Option Entry} {parts : List Activity} {next : List Table → Plan}
      {outcomes : List Outcome} {meant : Outcome}
      (entered : ∀ name ∈ held entry, meaning (.fetch name) = meant)
      (all : List.Forall₂ Computes parts outcomes)
      (means : (Outcome.gather outcomes).thenMeans answers meaning next = meant) :
      Computes (.joining entry parts next) meant

structure Faithful (seeds : List Table) (machine : Machine) : Prop where
  means : ∀ name table, machine.memo.slot? name = some (.filled table) → meaning (.fetch name) = .ok [table]
  supplied : ∀ name table, Memo.cached? (Memo.seedAll [] seeds) name = some table →
    machine.memo.slot? name = some (.filled table)

variable {answers meaning} {seeds : List Table} {host : Host} {request : Request}

theorem forall₂_splice {α β : Type} {related : α → β → Prop} {before after : List α} {value : α}
    {others : List β} (all : List.Forall₂ related (before ++ value :: after) others) :
    ∃ other ∈ others, related value other ∧
      ∀ later, related later other → List.Forall₂ related (before ++ later :: after) others := by
  induction before generalizing others with
  | nil =>
      cases all with
      | cons here rest => exact ⟨_, List.mem_cons_self, here, fun later same => .cons same rest⟩
  | cons head before ih =>
      cases all with
      | cons here rest =>
          obtain ⟨other, member, related, replace⟩ := ih rest
          exact ⟨other, List.mem_cons_of_mem _ member, related, fun later same => .cons here (replace later same)⟩

theorem computes_pending (errands : List Errand) :
    List.Forall₂ (Computes answers meaning) (errands.map .pending) (errands.map meaning) := by
  induction errands with
  | nil => exact .nil
  | cons head tail ih => exact .cons (.pending head) ih

theorem meant_of_settled {results : List (List Table)} {outcomes : List Outcome}
    (all : List.Forall₂ (Computes answers meaning) (results.map fun tables => .settled (.ok tables)) outcomes) :
    outcomes = results.map .ok := by
  induction results generalizing outcomes with
  | nil => cases all; rfl
  | cons head tail ih =>
      cases all with
      | cons here rest =>
          cases here with
          | settled reports => rw [reports.exact head rfl, ih rest]; rfl

theorem Faithful.unsupplied {machine : Machine} (faithful : Faithful meaning seeds machine) {errand : Errand}
    (free : errand.isFetch = true → machine.memo.IsFree errand.task) :
    errand.supplied? seeds = none := by
  cases errand with
  | run task input => rfl
  | process task => rfl
  | fetch task =>
      cases given : Errand.supplied? seeds (.fetch task) with
      | none => rfl
      | some table =>
          have filled := faithful.supplied task table given
          exact absurd filled ((free rfl).not_filled table)

theorem Step.computes (means : Errand.Means host.registry answers request seeds meaning)
    (pure : ∀ query earlier, (host.backends query earlier).2 = answers query)
    {activity later : Activity} {machine after : Machine}
    (step : Step host request activity machine later after) (faithful : Faithful meaning seeds machine)
    {meant : Outcome} (computes : activity.Computes answers meaning meant) :
    later.Computes answers meaning meant := by
  induction step generalizing meant with
  | refuse errand machine free missing =>
      cases computes with
      | pending =>
          rw [means.missing errand (faithful.unsupplied free) missing]
          exact .settled (.refl _)
  | begin errand worker machine free found =>
      cases computes with
      | pending =>
          refine .sleeping ?_ (means.worked errand worker (faithful.unsupplied free) found).symm
          intro name own
          rw [fetch_of_held own]
  | reuse task table machine filled =>
      cases computes with
      | pending =>
          rw [faithful.means task table filled]
          exact .settled (.refl _)
  | wait entry time delay rest machine awake =>
      cases computes with
      | sleeping entered means => exact .sleeping entered means
  | ask entry time query next machine awake =>
      cases computes with
      | sleeping entered means =>
          rw [pure query]
          exact .sleeping entered means
  | send entry time errands next machine awake =>
      cases computes with
      | sleeping entered means =>
          refine .joining entered (computes_pending errands) ?_
          rw [Outcome.gather_map, ← means, Plan.evaluate]
          cases Plan.inTurn meaning errands <;> rfl
  | finish entry time outcome machine awake =>
      cases computes with
      | sleeping entered means => exact .settled (means ▸ .refl outcome)
  | proceed entry results next machine =>
      cases computes with
      | joining entered all means =>
          rw [meant_of_settled all, Outcome.gather_ok] at means
          exact .sleeping entered means
  | abort entry parts next failure machine failed =>
      cases computes with
      | joining entered all means =>
          -- Another failure may be the first in the meaning, but a failure it is there too.
          refine .settled ⟨by rintro _ ⟨⟩, ?_⟩
          rintro _ ⟨⟩ early
          obtain ⟨before, after, rfl⟩ := List.append_of_mem failed
          obtain ⟨other, member, here, -⟩ := forall₂_splice all
          cases here with
          | settled reports =>
              obtain ⟨own, wrong⟩ := reports.fails failure rfl early
              obtain ⟨first, whole⟩ := Outcome.gather_error (wrong ▸ member)
              exact ⟨first, by rw [← means, whole]; rfl⟩
  | expire activity entry machine running due => exact .settled (.timedOut entry.task host.timeout meant)
  | part entry before after next step ih =>
      cases computes with
      | joining entered all means =>
          obtain ⟨other, -, here, replace⟩ := forall₂_splice all
          exact .joining entered (replace _ (ih faithful here)) means

theorem Computes.inside {inner whole : Activity} {meant : Outcome}
    (computes : whole.Computes answers meaning meant) (inside : Inside inner whole) :
    ∃ meant, inner.Computes answers meaning meant := by
  induction inside generalizing meant with
  | here => exact ⟨meant, computes⟩
  | part member _ ih =>
      cases computes with
      | joining _ all _ =>
          obtain ⟨before, after, rfl⟩ := List.append_of_mem member
          obtain ⟨other, -, here, -⟩ := forall₂_splice all
          exact ih here

theorem Step.fills_meant {activity later : Activity} {machine after : Machine}
    (step : Step host request activity machine later after) {meant : Outcome}
    (computes : activity.Computes answers meaning meant) {name : String} {table : Table}
    (filled : after.memo.slot? name = some (.filled table)) :
    machine.memo.slot? name = some (.filled table) ∨ meaning (.fetch name) = .ok [table] := by
  refine (step.fills filled).imp id ?_
  rintro ⟨entry, time, inside, own⟩
  obtain ⟨meant, here⟩ := computes.inside inside
  cases here with
  | sleeping entered means =>
      -- The slot was held for the very errand whose plan has ended here.
      exact (entered name own).trans means.symm

theorem Run.computes (means : Errand.Means host.registry answers request seeds meaning)
    (pure : ∀ query earlier, (host.backends query earlier).2 = answers query)
    {steps : Nat} {activity later : Activity} {machine after : Machine}
    (run : Run host request steps activity machine later after) (owns : activity.Owns machine)
    (faithful : Faithful meaning seeds machine) {meant : Outcome}
    (computes : activity.Computes answers meaning meant) : later.Computes answers meaning meant := by
  induction run with
  | stay => exact computes
  | idle idled rest ih =>
      refine ih (owns.idled idled) ⟨?_, ?_⟩ computes
      · intro name table filled
        exact faithful.means name table (by rw [← idled.memo]; exact filled)
      · intro name table given
        rw [idled.memo]
        exact faithful.supplied name table given
  | step first rest ih =>
      refine ih (first.owns owns) ⟨?_, ?_⟩ (first.computes means pure faithful computes)
      -- What this step has filled is what its errand means; the rest was there before.
      · intro name table filled
        rcases first.fills_meant computes filled with before | meant
        · exact faithful.means name table before
        · exact meant
      · intro name table given
        exact first.keeps_filled owns (faithful.supplied name table given)

end Activity

end Curator
