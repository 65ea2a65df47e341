import Curator.Proofs.Engine.Work
import Curator.Proofs.Table.Conform
/-!
What tasks of data produce: one table under their name, with the columns that they declare and rows
that these columns take. While plans are carried out, tables come into the memo in no other way.
-/

set_option autoImplicit false

namespace Curator

structure Table.Satisfies (table : Table) (task : Task) : Prop where
  named : table.name = task.name
  declared : task.columns ≠ [] → table.columns = task.columns
  conforming : table.Conforming

def Task.output (task : Task) : Promise where
  sends _ := True
  asks _ := True
  ends outcome := ∀ tables, outcome = .ok tables → ∃ table, tables = [table] ∧ table.Satisfies task

theorem ends_of_satisfies {task : Task} {table : Table} (satisfies : table.Satisfies task) :
    task.output.ends (.ok [table]) := by
  intro tables same
  cases same
  exact ⟨table, rfl, satisfies⟩

theorem ends_of_failure (task : Task) (failure : Failure) : task.output.ends (.error failure) :=
  fun _ impossible => nomatch impossible

theorem ofTable_output {task : Task} {attempt : Except Failure Table}
    (satisfies : ∀ table, attempt = .ok table → table.Satisfies task) :
    (Plan.ofTable attempt).Keeps task.output :=
  Plan.keeps_ofTable (fun table made => ends_of_satisfies (satisfies table made))
    fun failure _ => ends_of_failure task failure

theorem Source.typed_output {source : Source} (rows : List Row) :
    (Task.source source).output.ends (source.typed rows) := by
  rw [Source.typed]
  split
  · rename_i table made
    obtain ⟨named, declared, conforming⟩ := Table.ofRows_made made
    exact ends_of_satisfies ⟨named, fun _ => declared, conforming⟩
  · exact ends_of_failure _ _

theorem Source.plan_output (source : Source) (inline : Option (List Row)) (request : Request) :
    (source.plan inline request).Keeps (Task.source source).output := by
  rw [Source.plan]
  split
  · exact ends_of_satisfies ⟨rfl, fun _ => rfl, Table.empty_conforming _ _⟩
  · split
    · exact Source.typed_output _
    · refine ⟨trivial, ?_⟩
      intro answer
      cases answer with
      | ok rows => exact Source.typed_output rows
      | error causes => exact ends_of_failure _ _

theorem Feature.assemble_satisfies {feature : Feature} {tables : List Table} {table : Table}
    (made : feature.assemble tables = .ok table) : table.Satisfies (.feature feature) := by
  obtain ⟨merged, merging, restricting⟩ := bind_ok_iff.mp made
  obtain ⟨-, conforming⟩ := Table.merge_made (mapError_ok_iff.mp merging)
  obtain ⟨named, declared, conforming⟩ := Table.restrict_made conforming (mapError_ok_iff.mp restricting)
  exact ⟨named, declared, conforming⟩

theorem Transform.assemble_satisfies {transform : Transform} {tables : List Table} {table : Table}
    (made : transform.assemble tables = .ok table) : table.Satisfies (.transform transform) := by
  obtain ⟨merged, merging, later⟩ := bind_ok_iff.mp made
  obtain ⟨derived, deriving', restricting⟩ := bind_ok_iff.mp later
  obtain ⟨-, conforming⟩ := Table.merge_made (mapError_ok_iff.mp merging)
  have still := Table.derive_made conforming deriving'
  obtain ⟨named, declared, conforming⟩ := Table.restrict_made still (mapError_ok_iff.mp restricting)
  exact ⟨named, declared, conforming⟩

theorem Task.plan_output {task : Task} (data : task.kind = .dataService) (request : Request)
    (input : List Table) : (task.plan request input).Keeps task.output := by
  cases task with
  | source definition => exact definition.plan_output none request
  | feature definition =>
      exact Plan.keeps_pull (fun _ _ => trivial) fun tables =>
        ofTable_output fun table made => Feature.assemble_satisfies made
  | transform definition =>
      exact Plan.keeps_pull (fun _ _ => trivial) fun tables =>
        ofTable_output fun table made => Transform.assemble_satisfies made
  | service | experiment | layer | scene => cases data

theorem Worker.execute_output {worker : Worker} {task : Task} (serves : worker.Serves task)
    (builtIn : worker.IsBuiltIn) (data : task.kind = .dataService) (request : Request) (input : List Table) :
    (worker.execute request input).Keeps task.output := by
  cases serves with
  | inline definition rows => exact definition.plan_output (some rows) request
  | configured => exact Task.plan_output data request input
  | replaced => exact builtIn.elim

theorem Errand.plan_output {worker : Worker} {task : Task} (serves : worker.Serves task)
    (builtIn : worker.IsBuiltIn) (data : task.kind = .dataService) (request : Request) (errand : Errand) :
    (errand.plan request worker).Keeps task.output := by
  have process : (worker.process request).Keeps task.output := by
    apply Plan.keeps_andThen (Worker.execute_output serves builtIn data request [])
    · intro tables ends
      obtain ⟨table, rfl, satisfies⟩ := ends tables rfl
      exact ends_of_satisfies satisfies
    · exact fun failure _ => ends_of_failure task failure
  cases errand with
  | run name input => exact Worker.execute_output serves builtIn data request input
  | process name => exact process
  | fetch name => exact process

def Promise.fetchesData (graph : Graph) : Promise where
  sends errand := errand.isFetch = true → graph.IsData errand.task
  asks _ := True
  ends _ := True

def Promise.fillsData (graph : Graph) (entry : Option Entry) : Promise where
  sends _ := True
  asks _ := True
  ends outcome := ∀ name ∈ Activity.held entry, ∀ task, graph.lookup name = some task →
    task.kind = .dataService → task.output.ends outcome

section

variable {host : Host} (staffed : host.registry.Staffed) (request : Request)
include staffed

theorem Promise.fetchesData_kept : (Promise.fetchesData host.registry.graph).Kept host request where
  carried errand worker _ carried := by
    obtain ⟨task, found, serves⟩ := staffed.serves errand.task worker carried
    exact (Errand.plan_keeps serves request errand).mono
      (fun _ sends fetches => Graph.isData_of_fetch staffed.sound found sends fetches)
      (fun _ _ => trivial) fun _ _ => trivial
  recalled _ := trivial
  late _ := trivial

theorem Registry.Staffed.honors_fillsData (builtIn : host.registry.IsBuiltIn) :
    host.Honors request (Promise.fillsData host.registry.graph) := by
  intro errand worker deadline carried
  obtain ⟨own, here, serves⟩ := staffed.serves errand.task worker carried
  -- The only slot that the errand can be to fill is that of its own task.
  have same (name : String) (holds : name ∈ Activity.held (some ⟨errand.task, deadline, errand.isFetch⟩))
      (task : Task) (found : host.registry.graph.lookup name = some task) : task = own := by
    have named : errand.task = name := congrArg Errand.task (Activity.fetch_of_held holds)
    exact Option.some.inj (found.symm.trans (named ▸ here))
  by_cases data : own.kind = .dataService
  · refine (Errand.plan_output serves (builtIn _ _ carried) data request errand).mono
      (fun _ _ => trivial) (fun _ _ => trivial) ?_
    intro outcome ends name holds task found _
    exact same name holds task found ▸ ends
  · refine Plan.keeps_of_free (fun _ => trivial) (fun _ => trivial) ?_ _
    intro outcome name holds task found data'
    exact absurd (same name holds task found ▸ data') data

end

theorem Activity.Run.satisfied {host : Host} (staffed : host.registry.Staffed)
    (builtIn : host.registry.IsBuiltIn) {request : Request} {plan : Plan}
    (keeps : plan.Keeps (Promise.fetchesData host.registry.graph)) {steps time : Nat} {later : Activity}
    {machine after : Machine} (run : Run host request steps (.sleeping none time plan) machine later after)
    {name : String} {table : Table} (filled : after.memo.slot? name = some (.filled table)) :
    machine.memo.slot? name = some (.filled table) ∨
      ∃ task, host.registry.graph.lookup name = some task ∧ task.kind = .dataService ∧ table.Satisfies task := by
  have free : plan.Keeps (Promise.fillsData host.registry.graph none) :=
    Plan.keeps_of_free (fun _ => trivial) (fun _ => trivial) (fun _ _ holds => nomatch holds) plan
  have touched := run.touches (Promise.fetchesData_kept staffed request) (fun _ => trivial) (.start keeps time) name
  have made := run.fills (staffed.honors_fillsData request builtIn) (.sleeping free) filled
  rcases touched with same | data
  · exact .inl (same.symm.trans filled)
  · refine made.imp id fun ⟨entry, holds, ends⟩ => ?_
    obtain ⟨task, found, data⟩ := data rfl
    obtain ⟨other, same, satisfies⟩ := ends name holds task found data [table] rfl
    cases same
    exact ⟨task, found, data, satisfies⟩

end Curator
