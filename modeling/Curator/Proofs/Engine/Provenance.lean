import Curator.Proofs.Engine.Promise
import Curator.Proofs.Table.Revalidation
/-!
Where tables come from. There are only so many ways to come by a table, and each of them leaves rows
that have the columns of the table and are taken by them as they are. Whatever tasks are carried out
on such tables, they come to no others.
-/

set_option autoImplicit false

namespace Curator

namespace Table

structure WellFormed (table : Table) : Prop where
  conforming : table.Conforming
  fixed : table.Fixed

/-- The ways to come by a table. What is put through a schema may come from anywhere. -/
inductive Produced : Table → Prop
  | ofRows {name : String} {columns : List Column} {rows : List Row} {table : Table}
      (made : ofRows name columns rows = .ok table) : Produced table
  | ofRecords {name : String} {columns : List Column} {records : List Json} {table : Table}
      (made : ofRecords name columns records = .ok table) : Produced table
  | empty (name : String) (columns : List Column) : Produced (empty name columns)
  | rename {table : Table} (name : String) (produced : Produced table) : Produced (table.rename name)
  | take {table : Table} (count : Nat) (produced : Produced table) : Produced (table.take count)
  | stack {name : String} {tables : List Table} {table : Table}
      (made : stack name tables = .ok table) : Produced table
  | join {name column : String} {tables : List Table} {table : Table}
      (made : join name column tables = .ok table) : Produced table
  | restrict {name : String} {columns : List Column} {table made : Table} (produced : Produced table)
      (restricted : restrict name columns table = .ok made) : Produced made
  | derive {name : String} {actions : List Action} {table made : Table} (produced : Produced table)
      (derived : derive name actions table = .ok made) : Produced made
  | service {service : Service} {tables : List Table} {table : Table}
      (made : service.assemble tables = .ok table) : Produced table
  | rank {ranking : Ranking} {name : String} {candidates table : Table} {scores : List Float}
      (made : ranking.rank name candidates scores = .ok table) : Produced table
  | scene {scene : Scene} {tables : List Table} {table : Table}
      (made : scene.assemble tables = .ok table) : Produced table

variable {name : String} {columns : List Column} {table made : Table}

theorem ofRows_wellFormed {rows : List Row} (taken : Table.ofRows name columns rows = .ok made) :
    made.WellFormed :=
  ⟨(ofRows_made taken).2.2, ofRows_fixed taken⟩

theorem empty_wellFormed (name : String) (columns : List Column) : (Table.empty name columns).WellFormed :=
  ⟨empty_conforming name columns, fun _ member => nomatch member⟩

theorem WellFormed.take (wellFormed : table.WellFormed) (count : Nat) : (table.take count).WellFormed where
  conforming row member := wellFormed.conforming row (List.mem_of_mem_take member)
  fixed row member := wellFormed.fixed row (List.mem_of_mem_take member)

theorem WellFormed.restrict (wellFormed : table.WellFormed)
    (restricted : Table.restrict name columns table = .ok made) : made.WellFormed := by
  cases columns with
  | nil =>
      cases restricted
      exact ⟨wellFormed.conforming, wellFormed.fixed⟩
  | cons first rest => exact ofRows_wellFormed restricted

theorem WellFormed.derive {actions : List Action} (wellFormed : table.WellFormed)
    (derived : Table.derive name actions table = .ok made) : made.WellFormed := by
  refine ⟨derive_made wellFormed.conforming derived, ?_⟩
  rw [Table.derive] at derived
  split at derived
  · cases derived
    exact wellFormed.fixed
  · dsimp only at derived
    split at derived
    · cases derived
    · exact ofRows_fixed (mapError_ok_iff.mp derived)

theorem join_wellFormed {column : String} {tables : List Table} (joined : Table.join name column tables = .ok made) :
    made.WellFormed := by
  cases tables with
  | nil =>
      cases joined
      exact empty_wellFormed name []
  | cons base others => exact ofRows_wellFormed joined

theorem Produced.wellFormed (produced : table.Produced) : table.WellFormed := by
  induction produced with
  | ofRows made => exact ofRows_wellFormed made
  | ofRecords made =>
      obtain ⟨rows, -, taken⟩ := bind_ok_iff.mp made
      exact ofRows_wellFormed taken
  | empty name columns => exact empty_wellFormed name columns
  | rename name _ ih => exact ⟨ih.conforming, ih.fixed⟩
  | take count _ ih => exact ih.take count
  | stack made => exact ofRows_wellFormed made
  | join made => exact join_wellFormed made
  | restrict _ restricted ih => exact ih.restrict restricted
  | derive _ derived ih => exact ih.derive derived
  | service made =>
      obtain ⟨merged, -, later⟩ := bind_ok_iff.mp made
      obtain ⟨arranged, arranging, restricting⟩ := bind_ok_iff.mp later
      exact (ofRows_wellFormed (mapError_ok_iff.mp arranging)).restrict (mapError_ok_iff.mp restricting)
  | @rank ranking name candidates table scores made =>
      rw [Ranking.rank] at made
      split at made
      · exact ofRows_wellFormed (mapError_ok_iff.mp made)
      · cases made
  | @scene scene tables table made =>
      obtain ⟨merged, stacking, later⟩ := bind_ok_iff.mp made
      obtain ⟨shown, restricting, same⟩ := bind_ok_iff.mp later
      have whole := (ofRows_wellFormed (mapError_ok_iff.mp stacking)).restrict (mapError_ok_iff.mp restricting)
      cases pure_ok_iff.mp same
      cases scene.limit with
      | none => exact whole
      | some limit => exact whole.take limit

theorem produced_of_merge {column : Option String} {tables : List Table}
    (merged : Table.merge name column tables = .ok made) : made.Produced := by
  cases column with
  | none => exact .stack merged
  | some column => exact .join merged

end Table

/-! ## Plans -/

def Errand.input : Errand → List Table
  | .run _ input => input
  | .process _ | .fetch _ => []

def Outcome.Brings (good : Table → Prop) (outcome : Outcome) : Prop :=
  ∀ tables, outcome = .ok tables → ∀ table ∈ tables, good table

theorem Outcome.brings_error {good : Table → Prop} (failure : Failure) : Outcome.Brings good (.error failure) :=
  fun _ impossible => nomatch impossible

theorem Outcome.brings_ok {good : Table → Prop} {tables : List Table} (all : ∀ table ∈ tables, good table) :
    Outcome.Brings good (.ok tables) := by
  intro others same
  cases same
  exact all

-- As long as errands bring back good tables, the plan hands on no others and ends with no others,
-- whatever the answers are.
def Plan.Handles (good : Table → Prop) : Plan → Prop
  | .done outcome => outcome.Brings good
  | .wait _ rest => rest.Handles good
  | .ask _ next => ∀ answer, (next answer).Handles good
  | .send errands next =>
      (∀ errand ∈ errands, ∀ table ∈ errand.input, good table) ∧
        ∀ tables, (∀ table ∈ tables, good table) → (next tables).Handles good

def Worker.Brings (good : Table → Prop) : Worker → Prop
  | .replaced replacement => ∀ table ∈ replacement.outputs, good table
  | .inline _ _ | .configured _ => True

namespace Plan

variable {good : Table → Prop} {tasks : List String} {input : List Table} {next : List Table → Plan}

theorem handles_ofTable {attempt : Except Failure Table} (made : ∀ table, attempt = .ok table → good table) :
    (ofTable attempt).Handles good := by
  cases attempt with
  | ok table => exact Outcome.brings_ok (List.forall_mem_singleton.mpr (made table rfl))
  | error failure => exact Outcome.brings_error failure

theorem handles_andThen {plan : Plan} (handles : plan.Handles good)
    (onward : ∀ tables, (∀ table ∈ tables, good table) → (next tables).Handles good) :
    (plan.andThen next).Handles good := by
  induction plan with
  | done outcome =>
      cases outcome with
      | ok tables => exact onward tables (handles tables rfl)
      | error failure => exact Outcome.brings_error failure
  | wait delay rest ih => exact ih handles
  | ask query answered ih => exact fun answer => ih answer (handles answer)
  | send errands finished ih =>
      exact ⟨handles.1, fun tables all => ih tables (handles.2 tables all)⟩

theorem handles_stage (given : ∀ table ∈ input, good table)
    (onward : ∀ tables, (∀ table ∈ tables, good table) → (next tables).Handles good) :
    (stage tasks input next).Handles good := by
  refine ⟨?_, onward⟩
  intro errand sent
  obtain ⟨task, -, rfl⟩ := List.mem_map.mp sent
  exact given

theorem handles_pull (onward : ∀ tables, (∀ table ∈ tables, good table) → (next tables).Handles good) :
    (pull tasks next).Handles good := by
  refine ⟨?_, onward⟩
  intro errand sent
  obtain ⟨task, -, rfl⟩ := List.mem_map.mp sent
  exact fun table none => nomatch none

theorem handles_chain (given : ∀ table ∈ input, good table)
    (onward : ∀ tables, (∀ table ∈ tables, good table) → (next tables).Handles good) :
    (chain tasks input next).Handles good := by
  induction tasks generalizing input with
  | nil => exact onward input given
  | cons task rest ih => exact handles_stage given fun output all => ih all

end Plan

theorem Source.typed_brings (source : Source) (rows : List Row) : (source.typed rows).Brings Table.Produced := by
  rw [Source.typed]
  split
  · rename_i table made
    exact Outcome.brings_ok (List.forall_mem_singleton.mpr (.ofRows made))
  · exact Outcome.brings_error _

theorem Source.plan_handles (source : Source) (inline : Option (List Row)) (request : Request) :
    (source.plan inline request).Handles Table.Produced := by
  rw [Source.plan]
  split
  · exact Outcome.brings_ok (List.forall_mem_singleton.mpr (.empty _ _))
  · split
    · exact source.typed_brings _
    · intro answer
      cases answer with
      | ok rows => exact source.typed_brings rows
      | error causes => exact Outcome.brings_error _

theorem Feature.assemble_produced {feature : Feature} {tables : List Table} {table : Table}
    (made : feature.assemble tables = .ok table) : table.Produced := by
  obtain ⟨merged, merging, restricting⟩ := bind_ok_iff.mp made
  exact .restrict (Table.produced_of_merge (mapError_ok_iff.mp merging)) (mapError_ok_iff.mp restricting)

theorem Transform.assemble_produced {transform : Transform} {tables : List Table} {table : Table}
    (made : transform.assemble tables = .ok table) : table.Produced := by
  obtain ⟨merged, merging, later⟩ := bind_ok_iff.mp made
  obtain ⟨derived, deriving', restricting⟩ := bind_ok_iff.mp later
  have whole := Table.produced_of_merge (mapError_ok_iff.mp merging)
  exact .restrict (.derive whole deriving') (mapError_ok_iff.mp restricting)

theorem Experiment.plan_handles (experiment : Experiment) (request : Request) {input : List Table}
    (given : ∀ table ∈ input, table.Produced) : (experiment.plan request input).Handles Table.Produced := by
  refine Plan.handles_chain given fun outputs all => ?_
  split
  · exact Outcome.brings_ok all
  · split
    · exact Outcome.brings_error _
    · rename_i candidates stacked
      rw [Experiment.rankPlan]
      split
      · exact Outcome.brings_ok (List.forall_mem_singleton.mpr (.stack stacked))
      · intro answer
        cases answer with
        | ok scores => exact Plan.handles_ofTable fun table made => .rank made
        | error causes => exact Outcome.brings_error _

theorem Layer.plan_handles (layer : Layer) (request : Request) {input : List Table}
    (given : ∀ table ∈ input, table.Produced) : (layer.plan request input).Handles Table.Produced := by
  rw [Layer.plan]
  split
  · exact Outcome.brings_error _
  · exact Plan.handles_stage given fun tables all => Outcome.brings_ok all

theorem Task.plan_handles (task : Task) (request : Request) {input : List Table}
    (given : ∀ table ∈ input, table.Produced) : (task.plan request input).Handles Table.Produced := by
  cases task with
  | source definition => exact definition.plan_handles none request
  | feature definition =>
      exact Plan.handles_pull fun tables _ =>
        Plan.handles_ofTable fun table made => Feature.assemble_produced made
  | transform definition =>
      exact Plan.handles_pull fun tables _ =>
        Plan.handles_ofTable fun table made => Transform.assemble_produced made
  | service definition =>
      exact Plan.handles_pull fun tables _ => Plan.handles_ofTable fun table made => .service made
  | experiment definition => exact definition.plan_handles request given
  | layer definition => exact definition.plan_handles request given
  | scene definition =>
      exact Plan.handles_chain given fun outputs _ => Plan.handles_ofTable fun table made => .scene made

theorem Worker.execute_handles {worker : Worker} (brings : worker.Brings Table.Produced) (request : Request)
    {input : List Table} (given : ∀ table ∈ input, table.Produced) :
    (worker.execute request input).Handles Table.Produced := by
  cases worker with
  | inline source rows => exact source.plan_handles (some rows) request
  | configured task => exact task.plan_handles request given
  | replaced replacement =>
      change (replacement.outcome input).Brings Table.Produced
      rw [Replacement.outcome]
      split
      · exact Outcome.brings_error _
      · refine Outcome.brings_ok fun table member => ?_
        rcases List.mem_append.mp member with echoed | own
        · split at echoed
          · exact given table echoed
          · cases echoed
        · exact brings table own

theorem Outcome.single_produced {task : String} {tables : List Table} (all : ∀ table ∈ tables, table.Produced)
    {table : Table} (made : Outcome.single task tables = .ok table) : table.Produced := by
  simp only [Outcome.single] at made
  split at made
  · cases made
    exact all _ List.mem_cons_self
  · exact .stack (mapError_ok_iff.mp made)

theorem Errand.plan_handles {worker : Worker} (brings : worker.Brings Table.Produced) (request : Request)
    {errand : Errand} (given : ∀ table ∈ errand.input, table.Produced) :
    (errand.plan request worker).Handles Table.Produced := by
  have process : (worker.process request).Handles Table.Produced :=
    Plan.handles_andThen (Worker.execute_handles brings request fun _ none => nomatch none) fun tables all =>
      Plan.handles_ofTable fun table made => Outcome.single_produced all made
  cases errand with
  | run name input => exact Worker.execute_handles brings request given
  | process name => exact process
  | fetch name => exact process

/-! ## Runs -/

def Memo.Holds (good : Table → Prop) (memo : Memo) : Prop :=
  ∀ name table, memo.slot? name = some (.filled table) → good table

def Host.Handles (good : Table → Prop) (host : Host) (request : Request) : Prop :=
  ∀ (errand : Errand) (worker : Worker), (∀ table ∈ errand.input, good table) →
    host.registry.worker? errand.task = some worker → (errand.plan request worker).Handles good

namespace Activity

inductive Handles (good : Table → Prop) : Activity → Prop
  | settled {outcome : Outcome} (brings : outcome.Brings good) : Handles good (.settled outcome)
  | pending {errand : Errand} (given : ∀ table ∈ errand.input, good table) : Handles good (.pending errand)
  | sleeping {entry : Option Entry} {time : Nat} {rest : Plan} (handles : rest.Handles good) :
      Handles good (.sleeping entry time rest)
  | joining {entry : Option Entry} {parts : List Activity} {next : List Table → Plan}
      (all : ∀ part ∈ parts, Handles good part)
      (onward : ∀ tables, (∀ table ∈ tables, good table) → (next tables).Handles good) :
      Handles good (.joining entry parts next)

variable {good : Table → Prop} {host : Host} {request : Request} {activity later : Activity}
  {machine after : Machine}

theorem Handles.inside {inner whole : Activity} (handles : whole.Handles good) (inside : Inside inner whole) :
    inner.Handles good := by
  induction inside with
  | here => exact handles
  | part member _ ih =>
      cases handles with
      | joining all _ => exact ih (all _ member)

theorem Step.handles (hosts : host.Handles good request) (step : Step host request activity machine later after)
    (holds : machine.memo.Holds good) (handles : activity.Handles good) : later.Handles good := by
  induction step with
  | refuse => exact .settled (Outcome.brings_error _)
  | begin errand worker machine free found =>
      cases handles with
      | pending given => exact .sleeping (hosts errand worker given found)
  | reuse task table machine filled =>
      exact .settled (Outcome.brings_ok (List.forall_mem_singleton.mpr (holds task table filled)))
  | wait =>
      cases handles with
      | sleeping handles => exact .sleeping handles
  | ask =>
      cases handles with
      | sleeping handles => exact .sleeping (handles _)
  | send =>
      cases handles with
      | sleeping handles =>
          refine .joining ?_ handles.2
          intro part member
          obtain ⟨errand, sent, rfl⟩ := List.mem_map.mp member
          exact .pending (handles.1 errand sent)
  | finish =>
      cases handles with
      | sleeping brings => exact .settled brings
  | proceed entry results next machine =>
      cases handles with
      | joining all onward =>
          refine .sleeping (onward _ fun table member => ?_)
          obtain ⟨tables, listed, inside⟩ := List.mem_flatten.mp member
          cases all _ (List.mem_map_of_mem listed) with
          | settled brings => exact brings tables rfl table inside
  | abort => exact .settled (Outcome.brings_error _)
  | expire => exact .settled (Outcome.brings_error _)
  | part entry before after next step ih =>
      cases handles with
      | joining all onward =>
          have here := ih holds (all _ (by simp))
          exact .joining (forall_mem_replaced all here) onward

theorem Step.holds (step : Step host request activity machine later after) (holds : machine.memo.Holds good)
    (handles : activity.Handles good) : after.memo.Holds good := by
  intro name table filled
  rcases step.fills filled with before | ⟨entry, time, inside, -⟩
  · exact holds name table before
  · cases handles.inside inside with
    | sleeping brings => exact brings [table] rfl table List.mem_cons_self

theorem Run.handles (hosts : host.Handles good request) {steps : Nat}
    (run : Run host request steps activity machine later after) (holds : machine.memo.Holds good)
    (handles : activity.Handles good) : later.Handles good ∧ after.memo.Holds good := by
  induction run with
  | stay => exact ⟨handles, holds⟩
  | idle idled rest ih => exact ih (idled.memo ▸ holds) handles
  | step first rest ih => exact ih (first.holds holds handles) (first.handles hosts holds handles)

end Activity

/-- Every table that there is a way to come by has the rows that its columns ask for, and they are
taken once more as they are. On such tables, with such tables in the memo, tasks of every kind come to
no others, in whatever order their steps are taken. Rows make no table exactly if a row holds a value
that the first declaration of its name does not admit, and the error names the first such cell, by
rows and then by declarations. -/
theorem Table.produced_wellFormed :
    (∀ table : Table, table.Produced →
      (∀ row ∈ table.rows, row.Conforms table.columns) ∧
        Table.ofRows table.name table.columns table.rows = .ok table) ∧
    (∀ (host : Host) (request : Request) (errand : Errand) (machine : Machine),
      (∀ name worker, host.registry.worker? name = some worker → worker.Brings Table.Produced) →
      (∀ table ∈ errand.input, table.Produced) → machine.memo.Holds Table.Produced →
      ∀ steps tables after,
        Activity.Run host request steps (.sleeping none machine.clock (.send [errand] .succeed)) machine
            (.settled (.ok tables)) after →
          (∀ table ∈ tables, table.Produced) ∧ after.memo.Holds Table.Produced) ∧
    ∀ name columns rows,
      ((∃ error, Table.ofRows name columns rows = .error error) ↔
        ∃ row ∈ rows, ∃ column, row.Rejects columns column) ∧
      ∀ error, Table.ofRows name columns rows = .error error ↔
        ∃ before row after ahead column behind, rows = before ++ row :: after ∧
          columns = ahead ++ column :: behind ∧ row.Rejects columns column ∧
          (∀ earlier ∈ before, ∀ any, ¬ earlier.Rejects columns any) ∧
          (∀ earlier ∈ ahead, ¬ row.Rejects columns earlier) ∧
          error = .typeMismatch name before.length column.name column.type
            ((row.value? column.name).getD .null).describe := by
  refine ⟨?_, ?_, fun name columns rows => ⟨Table.ofRows_fails_iff, fun error => Table.ofRows_error_iff⟩⟩
  · intro table produced
    exact ⟨produced.wellFormed.conforming, produced.wellFormed.fixed.retaken⟩
  · intro host request errand machine brings given holds steps tables after run
    have hosts : host.Handles Table.Produced request := fun errand worker input found =>
      Errand.plan_handles (brings errand.task worker found) request input
    have start : (Plan.send [errand] .succeed).Handles Table.Produced :=
      ⟨List.forall_mem_singleton.mpr given, fun tables all => Outcome.brings_ok all⟩
    obtain ⟨handles, held⟩ := run.handles hosts holds (.sleeping start)
    cases handles with
    | settled brings => exact ⟨brings tables rfl, held⟩

def marksHost : Host where
  registry := ⟨⟨[], [], []⟩,
    [("marks", .inline ⟨"marks", [⟨"mark", .int32⟩, ⟨"note", .str⟩, ⟨"mark", .str⟩], none, none⟩
      [[("note", .string "n"), ("mark", .number (.int 1)), ("extra", .bool true)]])]⟩
  backends
    | .rows _ _ _, _ => (0, .error [])
    | .scores _ _ _ _, _ => (0, .error [])
  timeout := 1000
  schedule := .eager

theorem marks_wellFormed :
    let marks : Table := ⟨"marks", [⟨"mark", .int32⟩, ⟨"note", .str⟩, ⟨"mark", .str⟩],
      [[("mark", .null), ("note", .string "n")]]⟩
    (∃ after, after.memo = [("marks", .filled marks)] ∧
      Activity.Run marksHost .empty 5 (.sleeping none 0 (.send [.fetch "marks"] .succeed)) .start
        (.settled (.ok [marks])) after) ∧
      marks.Produced ∧ (∀ row ∈ marks.rows, row.Conforms marks.columns) ∧
      Table.ofRows marks.name marks.columns marks.rows = .ok marks ∧
      Table.ofRows marks.name marks.columns [[("mark", .null)], [("mark", .string "two")]] =
        .error (.typeMismatch "marks" 1 "mark" .int32 "string") := by
  intro marks
  obtain ⟨produced, runs, failures⟩ := Table.produced_wellFormed
  obtain ⟨after, memo, run⟩ : ∃ after, after.memo = [("marks", .filled marks)] ∧
      Activity.Run marksHost .empty 5 (.sleeping none 0 (.send [.fetch "marks"] .succeed)) .start
        (.settled (.ok [marks])) after := by
    refine ⟨_, ?_, .step (.send _ _ _ _ _ (Nat.le_refl 0)) <|
      .step (.part none [] [] _ (.begin (.fetch "marks") _ _ (fun _ => .inl rfl) rfl)) <|
      .step (.part none [] [] _ (.finish _ 0 _ _ (Nat.le_refl 0))) <|
      .step (.proceed none [[marks]] _ _) <|
      .step (.finish none 0 _ _ (Nat.le_refl 0)) (.stay _ _)⟩
    rfl
  have brings (name : String) (worker : Worker) (found : marksHost.registry.worker? name = some worker) :
      worker.Brings Table.Produced := by
    simp only [marksHost, Registry.worker?, List.lookup_cons, List.lookup_nil] at found
    split at found
    · cases found
      trivial
    · cases found
  obtain ⟨brought, -⟩ := runs marksHost .empty (.fetch "marks") .start brings (fun _ none => nomatch none)
    (fun _ _ none => nomatch none) _ _ _ run
  have own := brought marks List.mem_cons_self
  obtain ⟨conforming, retaken⟩ := produced marks own
  refine ⟨⟨after, memo, run⟩, own, conforming, retaken, ?_⟩
  refine ((failures _ _ _).2 _).mpr ⟨[[("mark", .null)]], [("mark", .string "two")], [], [], ⟨"mark", .int32⟩,
    [⟨"note", .str⟩, ⟨"mark", .str⟩], rfl, rfl, ⟨rfl, rfl⟩, ?_, fun _ none => (List.not_mem_nil none).elim, rfl⟩
  intro earlier first any rejects
  cases List.mem_singleton.mp first
  have empty : (Row.value? [("mark", .null)] any.name).getD .null = .null := by
    simp only [Row.value?, List.lookup_cons]
    split <;> rfl
  simpa [empty, ColumnType.accepts_null] using rejects.2

end Curator
