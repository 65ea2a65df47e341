import Curator.Proofs.Derive.Total
import Curator.Proofs.Table.Stack
/-!
Derived columns keep their types. An action writes a value that its column admits, or its total does not fit;
so the rows that a list of actions leaves have the columns that the list declares, and the schema takes them
as they are.
-/

set_option autoImplicit false

namespace Curator

namespace Action

/-! The columns after an action. -/

section Declare

variable {column other : Column} {columns : List Column}

theorem names_declare (column : Column) (columns : List Column) :
    (declare column columns).map Column.name =
      if column.name ∈ columns.map Column.name then columns.map Column.name
      else columns.map Column.name ++ [column.name] := by
  induction columns with
  | nil => simp [declare]
  | cons first rest ih =>
      by_cases same : first.name = column.name
      · simp [declare, same]
      · rw [declare, if_neg same]
        by_cases known : column.name ∈ rest.map Column.name
        · simp [ih, known]
        · simp [ih, known, Ne.symm same]

theorem nodup_declare (column : Column) (distinct : (columns.map Column.name).Nodup) :
    ((declare column columns).map Column.name).Nodup := by
  rw [names_declare]
  exact Row.nodup_added distinct column.name

theorem mem_declare (distinct : (columns.map Column.name).Nodup) (member : other ∈ declare column columns) :
    other = column ∨ other ∈ columns ∧ other.name ≠ column.name := by
  induction columns with
  | nil => exact .inl (List.mem_singleton.mp member)
  | cons first rest ih =>
      obtain ⟨fresh, others⟩ := List.nodup_cons.mp distinct
      by_cases same : first.name = column.name
      · rw [declare, if_pos same] at member
        rcases List.mem_cons.mp member with rfl | later
        · exact .inl rfl
        · refine .inr ⟨List.mem_cons_of_mem _ later, fun again => fresh ?_⟩
          rw [same, ← again]
          exact List.mem_map_of_mem later
      · rw [declare, if_neg same] at member
        rcases List.mem_cons.mp member with rfl | later
        · exact .inr ⟨List.mem_cons_self, same⟩
        · rcases ih others later with written | ⟨kept, apart⟩
          · exact .inl written
          · exact .inr ⟨List.mem_cons_of_mem _ kept, apart⟩

theorem conforms_insert {row : Row} {value : Json} (distinct : (columns.map Column.name).Nodup)
    (conforms : row.Conforms columns) (accepted : column.type.accepts value = true) :
    (Row.insert column.name value row).Conforms (declare column columns) := by
  refine ⟨?_, fun other member => ?_⟩
  · rw [Row.names_insert, conforms.names, Row.eraseDups_of_nodup (nodup_declare column distinct),
      Row.eraseDups_of_nodup distinct, names_declare]
  · rcases mem_declare distinct member with rfl | ⟨kept, apart⟩
    · exact ⟨value, Row.value?_insert_self _ _ _, accepted⟩
    · rw [Row.value?_insert_of_ne _ _ apart]
      exact conforms.typed other kept

end Declare

/-! What one action computes. -/

section Apply

variable {action : Action} {column : Column} {columns : List Column} {row : Row}

theorem inInt64_of_exactTotal {terms : List Term} {total sum : Int} (fits : Number.inInt64 total = true)
    (added : exactTotal total terms = .exact sum) : Number.inInt64 sum = true := by
  induction terms generalizing total with
  | nil =>
      cases added
      exact fits
  | cons term rest ih =>
      rcases term with ⟨amount, weight⟩
      rw [exactTotal] at added
      split at added
      · split at added
        · rename_i step
          exact ih (Bool.and_eq_true_iff.mp step).2 added
        · cases added
      · cases added

theorem inInt64_of_wholeTotal? {terms : List Term} {total : Int} (added : wholeTotal? terms = some total) :
    Number.inInt64 total = true := by
  rw [wholeTotal?] at added
  split at added
  · rename_i sum exact
    cases added
    exact inInt64_of_exactTotal rfl exact
  · cases added
  · rw [rounded?] at added
    split at added
    · exact (Option.filter_eq_some_iff.mp added).2
    · cases added

def Overflows (action : Action) (row : Row) (error : ActionError) : Prop :=
  action.IsTotal ∧
    (wholeTotal? (terms row action.weighted) = none ∧ error = .exceedsInt64 action.column.name ∨
      ∃ total, wholeTotal? (terms row action.weighted) = some total ∧ action.column.type = .int32 ∧
        Number.inInt32 total = false ∧ error = .exceedsInt32 action.column.name total)

theorem IsTotal.settles (total : action.IsTotal) (row : Row) :
    (∃ value, action.apply row = .ok value ∧ action.column.type.accepts value = true) ∨
      ∃ error, action.apply row = .error error ∧ action.Overflows row error := by
  rw [total.apply, combine]
  cases added : wholeTotal? (terms row action.weighted) with
  | none =>
      refine .inr ⟨.exceedsInt64 action.column.name, ?_, total, .inl ⟨added, rfl⟩⟩
      rcases total.whole with type | type <;> simp only [type]
  | some sum =>
      rcases total.whole with type | type
      · by_cases narrow : Number.inInt32 sum = true
        · refine .inl ⟨.number (.int sum), ?_, ?_⟩
          · simp only [type, if_pos narrow]
          · rw [type]
            exact ColumnType.accepts_int32_iff.mpr narrow
        · refine .inr ⟨.exceedsInt32 action.column.name sum, ?_, total, .inr ⟨sum, added, type, ?_, rfl⟩⟩
          · simp only [type, if_neg narrow]
          · simpa using narrow
      · refine .inl ⟨.number (.int sum), ?_, ?_⟩
        · simp only [type]
        · rw [type]
          exact ColumnType.accepts_int64_iff.mpr (inInt64_of_wholeTotal? added)

theorem sum_settles (legal : action.fault? = none) (sums : action.formula = .sum ∨ action.formula = .weightedSum)
    (numeric : action.column.type.isNumeric = true) (row : Row) :
    (∃ value, action.apply row = .ok value ∧ action.column.type.accepts value = true) ∨
      ∃ error, action.apply row = .error error ∧ action.Overflows row error := by
  by_cases whole : action.column.type = .int32 ∨ action.column.type = .int64
  · exact IsTotal.settles ⟨legal, sums, whole⟩ row
  · have real : action.column.type = .float ∨ action.column.type = .double := by
      cases type : action.column.type <;> simp_all [ColumnType.isNumeric]
    have combined (terms : List Term) : combine action.column terms = .ok (.ofFloat (floatTotal terms)) := by
      rcases real with type | type <;> simp only [combine, type]
    refine .inl ⟨.ofFloat (floatTotal (terms row action.weighted)), ?_, ColumnType.accepts_ofFloat _ real⟩
    rcases sums with sums | sums <;> simp only [Action.apply, weighted, sums, combined]

def CopyTyped (columns : List Column) (action : Action) : Prop :=
  action.formula = .copy → ∀ operand ∈ action.operands, ∀ column,
    columns.find? (·.name = operand) = some column → column.type = action.column.type

theorem accepts_copied {operand : String} {type : ColumnType} (conforms : row.Conforms columns)
    (typed : ∀ column, columns.find? (·.name = operand) = some column → column.type = type) :
    type.accepts ((row.value? operand).getD .null) = true := by
  cases declared : columns.find? (·.name = operand) with
  | some column =>
      have named : column.name = operand := by simpa using List.find?_some declared
      obtain ⟨value, held, accepted⟩ := conforms.typed column (List.mem_of_find?_eq_some declared)
      rw [← named, held, ← typed column declared]
      exact accepted
  | none =>
      have absent : row.value? operand = none := by
        rw [Row.value?_eq_none_iff, Table.mem_names_of_conforms conforms]
        simpa using List.find?_eq_none.mp declared
      rw [absent]
      exact type.accepts_null

theorem apply_settles (legal : action.fault? = none) (conforms : row.Conforms columns)
    (copy : action.CopyTyped columns) :
    (∃ value, action.apply row = .ok value ∧ action.column.type.accepts value = true) ∨
      ∃ error, action.apply row = .error error ∧ action.Overflows row error := by
  have consistent := action.fault?_eq_none_iff.mp legal
  cases formula : action.formula with
  | copy =>
      obtain ⟨operand, single⟩ : ∃ operand, action.operands = [operand] := by
        simp only [Consistent, formula] at consistent
        exact List.length_eq_one_iff.mp consistent.2
      refine .inl ⟨(row.value? operand).getD .null, ?_, accepts_copied conforms ?_⟩
      · simp only [Action.apply, formula, single, List.head?_cons, Option.bind_some]
      · exact copy formula operand (single ▸ List.mem_singleton_self operand)
  | sum =>
      simp only [Consistent, formula] at consistent
      exact sum_settles legal (.inl formula) consistent.2 row
  | weightedSum =>
      simp only [Consistent, formula] at consistent
      exact sum_settles legal (.inr formula) consistent.2.1 row
  | concat =>
      simp only [Consistent, formula] at consistent
      refine .inl ⟨.string (String.intercalate (action.separator.getD "_") (action.operands.filterMap fun operand =>
        (Row.value? row operand).bind Json.key?)), ?_, ?_⟩
      · simp only [Action.apply, formula]
      · rw [consistent.2]
        rfl

end Apply

/-! What a list of actions makes of a row. -/

section Run

variable {actions : List Action} {columns : List Column} {row made : Row} {name : String}

def declareAll (columns : List Column) (actions : List Action) : List Column :=
  actions.foldl (fun columns action => declare action.column columns) columns

def CopiesTyped : List Column → List Action → Prop
  | _, [] => True
  | columns, action :: rest => action.CopyTyped columns ∧ CopiesTyped (declare action.column columns) rest

/-- What actions make of a row. Under a name that none of them writes it stays as it is; under another
one it holds what the last of those that write it computes from the row that the ones before it leave. -/
structure Derives (actions : List Action) (row made : Row) : Prop where
  kept : ∀ name, (∀ action ∈ actions, action.column.name ≠ name) → made.value? name = row.value? name
  written : ∀ before action after, actions = before ++ action :: after →
    (∀ later ∈ after, later.column.name ≠ action.column.name) →
    ∃ reached value, applyAll before row = .ok reached ∧ action.apply reached = .ok value ∧
      made.value? action.column.name = some value

theorem nodup_declareAll (actions : List Action) (distinct : (columns.map Column.name).Nodup) :
    ((declareAll columns actions).map Column.name).Nodup := by
  induction actions generalizing columns with
  | nil => exact distinct
  | cons action rest ih => exact ih (nodup_declare action.column distinct)

theorem applyAll_append (before after : List Action) (row : Row) :
    applyAll (before ++ after) row = applyAll before row >>= applyAll after := by
  induction before generalizing row with
  | nil => rfl
  | cons action rest ih =>
      rw [List.cons_append, applyAll, applyAll]
      cases action.apply row with
      | error error => rfl
      | ok value => exact ih _

theorem value?_applyAll_of_unwritten (applied : applyAll actions row = .ok made)
    (unwritten : ∀ action ∈ actions, action.column.name ≠ name) : made.value? name = row.value? name := by
  induction actions generalizing row with
  | nil =>
      cases applied
      rfl
  | cons action rest ih =>
      obtain ⟨here, others⟩ := List.forall_mem_cons.mp unwritten
      obtain ⟨value, -, later⟩ := bind_ok_iff.mp applied
      rw [ih later others, Row.value?_insert_of_ne _ _ (Ne.symm here)]

theorem derives_of_applyAll (applied : applyAll actions row = .ok made) : Derives actions row made := by
  refine ⟨fun name unwritten => value?_applyAll_of_unwritten applied unwritten, ?_⟩
  rintro before action after rfl last
  rw [applyAll_append] at applied
  obtain ⟨reached, first, later⟩ := bind_ok_iff.mp applied
  obtain ⟨value, computed, rest⟩ := bind_ok_iff.mp later
  exact ⟨reached, value, first, computed, by rw [value?_applyAll_of_unwritten rest last, Row.value?_insert_self]⟩

theorem applyAll_settles (legal : ∀ action ∈ actions, action.fault? = none)
    (distinct : (columns.map Column.name).Nodup) (conforms : row.Conforms columns)
    (copies : CopiesTyped columns actions) :
    (∃ made, applyAll actions row = .ok made ∧ made.Conforms (declareAll columns actions)) ∨
      ∃ before action after reached error, actions = before ++ action :: after ∧
        applyAll before row = .ok reached ∧ action.Overflows reached error ∧ applyAll actions row = .error error := by
  induction actions generalizing columns row with
  | nil => exact .inl ⟨row, rfl, conforms⟩
  | cons action rest ih =>
      obtain ⟨here, others⟩ := List.forall_mem_cons.mp legal
      obtain ⟨copy, copies⟩ := copies
      rcases apply_settles here conforms copy with ⟨value, computed, accepted⟩ | ⟨error, failed, overflows⟩
      · have inserted := conforms_insert distinct conforms accepted
        have step : applyAll (action :: rest) row = applyAll rest (Row.insert action.column.name value row) := by
          rw [applyAll, computed]
          rfl
        rw [step]
        rcases ih others (nodup_declare action.column distinct) inserted copies with
          ⟨made, applied, conforms⟩ | ⟨before, later, after, reached, error, split, passed, overflows, failed⟩
        · exact .inl ⟨made, applied, conforms⟩
        · refine .inr ⟨action :: before, later, after, reached, error, ?_, ?_, overflows, failed⟩
          · rw [split, List.cons_append]
          · exact bind_ok_iff.mpr ⟨value, computed, passed⟩
      · exact .inr ⟨[], action, rest, row, error, rfl, rfl, overflows, bind_error_iff.mpr (.inl failed)⟩

end Run

end Action

namespace Table

variable {name : String} {join : Option String} {actions : List Action} {tables : List Table} {rows : List Row}
  {merged : Table}

theorem nodup_merge (merging : merge name join tables = .ok merged) : (merged.columns.map Column.name).Nodup := by
  cases join with
  | none =>
      obtain ⟨-, declared, -⟩ := ofRows_made merging
      exact declared ▸ nodup_unionColumns _
  | some column =>
      cases tables with
      | nil =>
          cases merging
          exact List.nodup_nil
      | cons base others =>
          obtain ⟨-, declared, -⟩ := ofRows_made merging
          exact declared ▸ nodup_unionColumns _

theorem applyToRows_settles (actions : List Action) (rows : List Row) :
    (∃ made, applyToRows actions rows = .ok made ∧
        List.Forall₂ (fun row made => Action.applyAll actions row = .ok made) rows made) ∨
      ∃ row ∈ rows, ∃ error, Action.applyAll actions row = .error error ∧ applyToRows actions rows = .error error := by
  induction rows with
  | nil => exact .inl ⟨[], rfl, .nil⟩
  | cons row rest ih =>
      cases first : Action.applyAll actions row with
      | error error =>
          exact .inr ⟨row, List.mem_cons_self, error, first, bind_error_iff.mpr (.inl first)⟩
      | ok made =>
          rcases ih with ⟨others, behind, each⟩ | ⟨other, member, error, failed, stops⟩
          · exact .inl ⟨made :: others, bind_ok_iff.mpr ⟨made, first, bind_ok_iff.mpr ⟨others, behind, rfl⟩⟩,
              .cons first each⟩
          · exact .inr ⟨other, List.mem_cons_of_mem _ member, error, failed,
              bind_error_iff.mpr (.inr ⟨made, first, bind_error_iff.mpr (.inl stops)⟩)⟩

theorem conforms_of_applied {columns : List Column} {made : List Row}
    (each : List.Forall₂ (fun row made => Action.applyAll actions row = .ok made) rows made)
    (legal : ∀ action ∈ actions, action.fault? = none) (distinct : (columns.map Column.name).Nodup)
    (conforms : ∀ row ∈ rows, row.Conforms columns) (copies : Action.CopiesTyped columns actions) :
    ∀ row ∈ made, row.Conforms (Action.declareAll columns actions) := by
  induction each with
  | nil => simp
  | cons applied _ ih =>
      obtain ⟨here, others⟩ := List.forall_mem_cons.mp conforms
      refine List.forall_mem_cons.mpr ⟨?_, ih others⟩
      rcases Action.applyAll_settles legal distinct here copies with
        ⟨row, same, typed⟩ | ⟨_, _, _, _, _, -, -, -, failed⟩
      · cases applied.symm.trans same
        exact typed
      · cases applied.symm.trans failed

/-- Legal actions on merged rows, in which every copy has the type of what it reads, give each row its new
values, in the columns that they declare; or the total of one of them does not fit. The schema refuses nothing. -/
theorem derive_sound (merging : merge name join tables = .ok merged)
    (legal : ∀ action ∈ actions, action.fault? = none) (copies : Action.CopiesTyped merged.columns actions) :
    (∃ made, derive name actions merged = .ok made ∧ made.name = name ∧
        made.columns = Action.declareAll merged.columns actions ∧ made.Conforming ∧
        List.Forall₂ (Action.Derives actions) merged.rows made.rows) ∨
      ∃ row ∈ merged.rows, ∃ before action after reached error, actions = before ++ action :: after ∧
        Action.applyAll before row = .ok reached ∧ action.Overflows reached error ∧
        derive name actions merged = .error (.executionFailed name (.action error)) := by
  obtain ⟨named, conforming⟩ := merge_made merging
  have distinct := nodup_merge merging
  by_cases none : actions = []
  · subst none
    exact .inl ⟨merged, rfl, named, rfl, conforming, List.forall₂_same.mpr fun _ _ => Action.derives_of_applyAll rfl⟩
  · rw [derive, if_neg (by simpa using none)]
    dsimp only
    rcases applyToRows_settles actions merged.rows with ⟨rows, applied, each⟩ | ⟨row, member, error, failed, stops⟩
    · have typed := conforms_of_applied each legal distinct conforming copies
      refine .inl ⟨⟨name, Action.declareAll merged.columns actions, rows⟩, ?_, rfl, rfl, typed,
        each.imp fun _ _ => Action.derives_of_applyAll⟩
      rw [applied]
      exact mapError_ok_iff.mpr (ofRows_of_conforms (Action.nodup_declareAll actions distinct) typed)
    · refine .inr ⟨row, member, ?_⟩
      rcases Action.applyAll_settles legal distinct (conforming row member) copies with
        ⟨made, same, -⟩ | ⟨before, action, after, reached, overflow, split, passed, overflows, same⟩
      · cases failed.symm.trans same
      · cases failed.symm.trans same
        exact ⟨before, action, after, reached, error, split, passed, overflows, by rw [stops]⟩

theorem songs_derived :
    let songs : Table := ⟨"songs", [⟨"song", .str⟩, ⟨"plays", .int64⟩, ⟨"skips", .int32⟩],
      [[("song", .string "a"), ("plays", .number (.int 5)), ("skips", .number (.int 2))]]⟩
    let actions : List Action := [⟨⟨"heard", .int64⟩, .sum, ["plays", "skips"], [], none⟩,
      ⟨⟨"plays", .str⟩, .concat, ["song", "heard"], [], none⟩, ⟨⟨"label", .str⟩, .copy, ["plays"], [], none⟩]
    let labelled : Table := ⟨"songs",
      [⟨"song", .str⟩, ⟨"plays", .str⟩, ⟨"skips", .int32⟩, ⟨"heard", .int64⟩, ⟨"label", .str⟩],
      [[("song", .string "a"), ("plays", .string "a_7"), ("skips", .number (.int 2)), ("heard", .number (.int 7)),
        ("label", .string "a_7")]]⟩
    merge "songs" none [songs] = .ok songs ∧ (∀ action ∈ actions, action.fault? = none) ∧
      Action.CopiesTyped songs.columns actions ∧ derive "songs" actions songs = .ok labelled ∧
      labelled.Conforming ∧ List.Forall₂ (Action.Derives actions) songs.rows labelled.rows := by
  intro songs actions labelled
  have merging : merge "songs" none [songs] = .ok songs := rfl
  have legal : ∀ action ∈ actions, action.fault? = none := by decide
  have copies : Action.CopiesTyped songs.columns actions := by
    refine ⟨nofun, nofun, fun _ operand listed column declared => ?_, trivial⟩
    cases List.mem_singleton.mp listed
    cases (declared : some (⟨"plays", .str⟩ : Column) = some column)
    rfl
  have derived : derive "songs" actions songs = .ok labelled := rfl
  rcases derive_sound merging legal copies with ⟨made, same, -, -, typed, each⟩ | ⟨_, _, _, _, _, _, _, -, -, -, failed⟩
  · cases derived.symm.trans same
    exact ⟨merging, legal, copies, derived, typed, each⟩
  · cases derived.symm.trans failed

end Table

end Curator
