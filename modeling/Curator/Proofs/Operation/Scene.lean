import Mathlib
import Curator.Proofs.Engine.Course
import Curator.Proofs.Operation.Refinement
import Curator.Proofs.Table.Conform
/-!
The records that a scene is answered with. The scene's own table has the declared columns, with values
of their types; only after that is the subject put where a record has no `id`, always as text.
-/

set_option autoImplicit false

namespace Curator

namespace Row

theorem filter_insert (name : String) (value : Json) (row : Row) :
    (insert name value row).filter (·.1 ≠ name) = row.filter (·.1 ≠ name) := by
  induction row with
  | nil => simp [insert]
  | cons member rest ih =>
      obtain ⟨other, old⟩ := member
      by_cases same : other = name
      · simp [insert, same]
      · simpa [insert, same] using ih

def HasIdentity (row : Row) : Prop := ∃ id, row.value? "id" = some id ∧ id ≠ .null

theorem identify_of_hasIdentity {row : Row} (own : row.HasIdentity) (subject : String) :
    row.identify subject = row := by
  obtain ⟨id, held, given⟩ := own
  rw [identify, held]
  cases id with
  | null => exact absurd rfl given
  | bool | number | string | array | object => rfl

theorem identify_of_not_hasIdentity {row : Row} (anonymous : ¬ row.HasIdentity) (subject : String) :
    row.identify subject = row.insert "id" (.string subject) := by
  rw [identify]
  cases held : row.value? "id" with
  | none => rfl
  | some id =>
      cases id with
      | null => rfl
      | bool | number | string | array | object => exact absurd ⟨_, held, nofun⟩ anonymous

/-- What a record is that a scene has produced a row for. -/
structure Presents (record : Row) (subject : String) (columns : List Column) (row : Row) : Prop where
  identified : record.HasIdentity
  kept : row.HasIdentity → record = row
  stamped : ¬ row.HasIdentity → record.value? "id" = some (.string subject)
  others : record.filter (·.1 ≠ "id") = row.filter (·.1 ≠ "id")
  typed : ∀ column ∈ columns, ∃ value, record.value? column.name = some value ∧
    (column.type.accepts value = true ∨ column.name = "id" ∧ ¬ row.HasIdentity)

theorem presents_identify {columns : List Column} {row : Row} (subject : String)
    (typed : ∀ column ∈ columns, ∃ value, row.value? column.name = some value ∧ column.type.accepts value = true) :
    (row.identify subject).Presents subject columns row := by
  by_cases own : row.HasIdentity
  · rw [identify_of_hasIdentity own]
    refine ⟨own, fun _ => rfl, fun anonymous => absurd own anonymous, rfl, fun column declared => ?_⟩
    obtain ⟨value, held, accepted⟩ := typed column declared
    exact ⟨value, held, .inl accepted⟩
  · rw [identify_of_not_hasIdentity own]
    have stamped : (row.insert "id" (.string subject)).value? "id" = some (.string subject) :=
      value?_insert_self _ _ _
    refine ⟨⟨_, stamped, nofun⟩, fun has => absurd has own, fun _ => stamped, filter_insert _ _ row, ?_⟩
    intro column declared
    by_cases named : column.name = "id"
    · refine ⟨.string subject, ?_, .inr ⟨named, own⟩⟩
      rw [named]
      exact stamped
    · obtain ⟨value, held, accepted⟩ := typed column declared
      exact ⟨value, (value?_insert_of_ne _ _ named).trans held, .inl accepted⟩

end Row

theorem Scene.assemble_made {scene : Scene} {tables : List Table} {made : Table}
    (assembled : scene.assemble tables = .ok made) :
    (∀ limit, scene.limit = some limit → made.rows.length ≤ limit) ∧
      ∀ row ∈ made.rows, ∀ column ∈ scene.columns, ∃ value, row.value? column.name = some value ∧
        column.type.accepts value = true := by
  obtain ⟨merged, stacked, later⟩ := bind_ok_iff.mp assembled
  obtain ⟨shown, restricted, cut⟩ := bind_ok_iff.mp later
  have conforming : merged.Conforming := (Table.ofRows_made (mapError_ok_iff.mp stacked)).2.2
  obtain ⟨-, declared, conforms⟩ := Table.restrict_made conforming (mapError_ok_iff.mp restricted)
  have typed (row : Row) (member : row ∈ shown.rows) (column : Column) (listed : column ∈ scene.columns) :
      ∃ value, row.value? column.name = some value ∧ column.type.accepts value = true :=
    (conforms row member).typed column (declared (List.ne_nil_of_mem listed) ▸ listed)
  have same := pure_ok_iff.mp cut
  cases limited : scene.limit with
  | none =>
      simp only [limited] at same
      exact same ▸ ⟨nofun, typed⟩
  | some limit =>
      simp only [limited] at same
      subst same
      refine ⟨fun other some => ?_, fun row member => typed row (List.mem_of_mem_take member)⟩
      cases some
      exact List.length_take_le _ _

theorem Scene.process_leads {scene : Scene} {request : Request} {tables : List Table}
    (leads : ((Worker.configured (.scene scene)).process request).Leads (.succeed tables)) :
    ∃ outputs table, scene.assemble outputs = .ok table ∧ tables = [table] := by
  let assembled : Promise := ⟨fun _ => True, fun _ => True, fun outcome =>
    ∀ tables, outcome = .ok tables → ∃ outputs table, scene.assemble outputs = .ok table ∧ tables = [table]⟩
  have executes : ((Worker.configured (.scene scene)).execute request []).Keeps assembled := by
    refine Plan.keeps_chain (fun _ _ _ => trivial) fun outputs => ?_
    refine Plan.keeps_ofTable (fun table made tables same => ?_) fun _ _ _ failed => nomatch failed
    cases same
    exact ⟨outputs, table, made, rfl⟩
  have keeps : ((Worker.configured (.scene scene)).process request).Keeps assembled := by
    refine Plan.keeps_andThen executes (fun produced ends => ?_) fun _ _ _ failed => nomatch failed
    obtain ⟨outputs, table, made, rfl⟩ := ends produced rfl
    refine Plan.keeps_ofTable (fun single own tables same => ?_) fun _ _ _ failed => nomatch failed
    cases same
    cases own
    exact ⟨outputs, table, made, rfl⟩
  exact keeps.leads leads tables rfl

section Recommend

variable {flow : Flow} {graph : Graph} {offer : Offer} {host : Host} {scene : String} {definition : Scene}
  {subject : String} {params : Row} {machine : Machine}

theorem Host.recommendFor_assembled (staffed : host.registry.Staffed)
    (carried : host.registry.worker? scene = some (.configured (.scene definition))) {tables : List Table}
    (succeeds : (host.operate (.recommendFor scene subject params) machine).1 = .ok tables) :
    ∃ outputs table, definition.assemble outputs = .ok table ∧ tables = [table] := by
  cases made : (Operation.recommendFor scene subject params).job host.registry with
  | error failure =>
      rw [host.operate_refused _ made] at succeeds
      cases succeeds
  | ok job =>
      rw [host.operate_made _ made] at succeeds
      obtain ⟨steps, run⟩ := host.runJob_settles staffed made machine
      obtain ⟨-, -, -, plan⟩ := Job.recommendFor_ok made
      rw [plan, succeeds] at run
      obtain ⟨worker, known, leads⟩ := run.relayed.leads rfl
      cases carried.symm.trans known
      exact Scene.process_leads leads

/-- A scene that answers for a subject, whatever is behind it, answers with the rows of its own table,
one record for each and no more than its limit. A record has an `id` that is not `null`: its own,
in which case it is left as it is, or else the subject, and nothing else about it is changed. Every
declared column has a value of its type, apart from the `id` of records that had none. -/
theorem Host.scene_presents (accepted : Graph.ofFlow flow = .ok graph)
    (built : Registry.build graph offer = .ok host.registry)
    (found : graph.lookup scene = some (.scene definition))
    (unreplaced : ∀ replacement ∈ offer.replacements, replacement.name ≠ scene)
    (success : (host.answer (.recommendFor scene subject params) machine).1.isSuccess = true) :
    ∃ outputs table, definition.assemble outputs = .ok table ∧
      (host.operate (.recommendFor scene subject params) machine).1 = .ok [table] ∧
      (host.answer (.recommendFor scene subject params) machine).1.subject = some subject ∧
      (∀ limit, definition.limit = some limit →
        (host.answer (.recommendFor scene subject params) machine).1.rows.length ≤ limit) ∧
      List.Forall₂ (fun row record => record.Presents subject definition.columns row)
        table.rows (host.answer (.recommendFor scene subject params) machine).1.rows := by
  have sound : graph.Sound := Graph.sound_of_ofFlow accepted
  have carried := Registry.configured_of_unreplaced sound built unreplaced found rfl
  rw [Host.answer] at success ⊢
  cases outcome : (host.operate (.recommendFor scene subject params) machine).1 with
  | error failure =>
      simp only [outcome] at success
      cases success
  | ok tables =>
      obtain ⟨outputs, table, assembled, rfl⟩ :=
        Host.recommendFor_assembled (Registry.staffed_of_build sound built) carried outcome
      obtain ⟨limited, typed⟩ := Scene.assemble_made assembled
      have rows : ((Operation.recommendFor scene subject params).reply (.ok [table])).rows =
          table.rows.map (Row.identify subject) := by
        simp [Operation.reply, Envelope.successFor]
      simp only [outcome]
      refine ⟨outputs, table, assembled, rfl, rfl, fun limit own => ?_, ?_⟩
      · rw [rows, List.length_map]
        exact limited limit own
      · rw [rows, List.forall₂_map_right_iff, List.forall₂_same]
        exact fun row member => Row.presents_identify subject (typed row member)

end Recommend

def shelfHome : Scene := ⟨"home", ["shelf"], [⟨"item", .str⟩, ⟨"id", .int64⟩], some 1⟩

def shelfItems : Source := ⟨"items", [⟨"item", .str⟩], some [[("item", .string "a")], [("item", .string "b")]], none⟩

def shelfFlow : Flow :=
  { Flow.empty with
    sources := [shelfItems]
    services := [⟨"shelf", ["items"], [], none, none, true, none⟩]
    scenes := [shelfHome] }

def shelfGraph : Graph := ⟨shelfFlow.tasks, [], [("items", []), ("shelf", ["items"]), ("home", ["items"])]⟩

def shelfHost : Host where
  registry := ⟨shelfGraph, [("items", .inline shelfItems shelfItems.rows.get!),
    ("shelf", .configured (.service ⟨"shelf", ["items"], [], none, none, true, none⟩)),
    ("home", .configured (.scene shelfHome))]⟩
  backends
    | .rows _ _ _, _ => (0, .ok [])
    | .scores _ _ _ _, _ => (0, .ok [])
  timeout := 1000
  schedule := .eager

theorem shelf_flow_accepted : Graph.ofFlow shelfFlow = .ok shelfGraph :=
  Graph.ofFlow_ok_iff.mpr ⟨rfl, rfl, rfl, rfl, .cons (by cbv) (.cons (by cbv) (.cons (by cbv) .nil))⟩

theorem shelf_record_presented :
    ∃ row record, (shelfHost.answer (.recommendFor "home" "7" []) .start).1.rows = [record] ∧
      record.Presents "7" shelfHome.columns row ∧ ¬ row.HasIdentity := by
  have built : Registry.build shelfGraph .empty = .ok shelfHost.registry := rfl
  have success : (shelfHost.answer (.recommendFor "home" "7" []) .start).1.isSuccess = true := by decide +kernel
  have found : shelfGraph.lookup "home" = some (.scene shelfHome) := rfl
  obtain ⟨outputs, table, -, produced, -, limited, presented⟩ :=
    Host.scene_presents shelf_flow_accepted built found (fun _ member => nomatch member) success
  have computed : (shelfHost.operate (.recommendFor "home" "7" []) .start).1 =
      .ok [⟨"home", shelfHome.columns, [[("item", .string "a"), ("id", .null)]]⟩] := rfl
  cases produced.symm.trans computed
  generalize (shelfHost.answer (.recommendFor "home" "7" []) .start).1.rows = rows at presented
  cases presented with
  | cons presents rest =>
      cases rest
      refine ⟨_, _, rfl, presents, ?_⟩
      rintro ⟨id, held, given⟩
      cases held
      exact given rfl

theorem shelf_id_ill_typed :
    Graph.ofFlow shelfFlow = .ok shelfGraph ∧ Registry.build shelfGraph .empty = .ok shelfHost.registry ∧
      (shelfHost.answer (.recommendFor "home" "7" []) .start).1.isSuccess = true ∧
      ∃ record ∈ (shelfHost.answer (.recommendFor "home" "7" []) .start).1.rows, ∃ column ∈ shelfHome.columns,
        ∃ value, record.value? column.name = some value ∧ column.type.accepts value = false := by
  have rows : (shelfHost.answer (.recommendFor "home" "7" []) .start).1.rows =
      [[("item", .string "a"), ("id", .string "7")]] := rfl
  refine ⟨by cbv, rfl, by decide +kernel, ?_⟩
  rw [rows]
  exact ⟨_, List.mem_singleton_self _, ⟨"id", .int64⟩, by simp [shelfHome], .string "7", rfl, rfl⟩

end Curator
