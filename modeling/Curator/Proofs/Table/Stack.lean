import Curator.Proofs.Table.Join
/-!
Stacked tables: their schema is the union of the schemas, with the first declaration of every name, and
their rows are the given rows under that schema. It makes no difference whether tables are stacked all at
once or in two steps.
-/

set_option autoImplicit false

namespace Curator

/-! The union of schemas, column by column. -/

def enlist (known : List Column) (column : Column) : List Column :=
  if known.any (·.name = column.name) then known else known ++ [column]

theorem unionColumns_eq_foldl (schemas : List (List Column)) :
    unionColumns schemas = schemas.flatten.foldl enlist [] := rfl

theorem find?_enlist (known : List Column) (column : Column) (name : String) :
    (enlist known column).find? (·.name = name) =
      (known.find? (·.name = name)).or (if column.name = name then some column else none) := by
  rw [enlist]
  by_cases declared : known.any (·.name = column.name) = true
  · rw [if_pos declared]
    by_cases same : column.name = name
    · obtain ⟨first, found⟩ : ∃ first, known.find? (·.name = name) = some first := by
        rw [← Option.isSome_iff_exists, List.find?_isSome]
        simpa [same] using declared
      rw [found, Option.some_or]
    · rw [if_neg same, Option.or_none]
  · rw [if_neg declared, List.find?_append]
    by_cases same : column.name = name <;> simp [same]

theorem find?_foldl_enlist (known columns : List Column) (name : String) :
    (columns.foldl enlist known).find? (·.name = name) =
      (known.find? (·.name = name)).or (columns.find? (·.name = name)) := by
  induction columns generalizing known with
  | nil => simp
  | cons column rest ih =>
      rw [List.foldl_cons, ih, find?_enlist, Option.or_assoc]
      by_cases same : column.name = name <;> simp [same]

theorem find?_unionColumns (schemas : List (List Column)) (name : String) :
    (unionColumns schemas).find? (·.name = name) = schemas.flatten.find? (·.name = name) := by
  rw [unionColumns_eq_foldl, find?_foldl_enlist, List.find?_nil, Option.none_or]

theorem enlist_of_declared {known : List Column} {column : Column}
    (declared : (known.find? (·.name = column.name)).isSome = true) : enlist known column = known :=
  if_pos (by simpa [List.find?_isSome] using declared)

theorem foldl_enlist_foldl (known columns : List Column) :
    (columns.foldl enlist []).foldl enlist known = columns.foldl enlist known := by
  induction columns using List.reverseRecOn with
  | nil => rfl
  | append_singleton columns column ih =>
      rw [List.foldl_append, List.foldl_append, List.foldl_cons, List.foldl_nil, List.foldl_cons, List.foldl_nil]
      by_cases declared : ((columns.foldl enlist []).find? (·.name = column.name)).isSome = true
      · have later : ((columns.foldl enlist known).find? (·.name = column.name)).isSome = true := by
          rw [find?_foldl_enlist, List.find?_nil, Option.none_or] at declared
          rw [find?_foldl_enlist, Option.isSome_or, declared, Bool.or_true]
        rw [enlist_of_declared declared, enlist_of_declared later, ih]
      · have fresh : ¬ (columns.foldl enlist []).any (·.name = column.name) = true := by
          simpa [List.find?_isSome] using declared
        rw [enlist, if_neg fresh, List.foldl_append, List.foldl_cons, List.foldl_nil, ih]

theorem unionColumns_union (upper lower : List (List Column)) :
    unionColumns [unionColumns upper, unionColumns lower] = unionColumns (upper ++ lower) := by
  simp only [unionColumns_eq_foldl, List.flatten_cons, List.flatten_nil, List.append_nil, List.foldl_append,
    List.flatten_append, foldl_enlist_foldl]

theorem nodup_unionColumns (schemas : List (List Column)) : ((unionColumns schemas).map Column.name).Nodup := by
  rw [names_unionColumns]
  exact nodup_eraseDups _

namespace Row

-- What a schema makes of a row: the declared names in their order, each with what the row holds there. A
-- value that is missing is `null`, as is every value under a name that is declared more than once.
def pick (columns : List Column) (row : Row) : Row :=
  (columns.map Column.name).eraseDups.map fun name =>
    (name, if (columns.map Column.name).count name = 1 then (row.value? name).getD .null else .null)

theorem names_pick (columns : List Column) (row : Row) :
    (pick columns row).names = (columns.map Column.name).eraseDups := by
  simp [pick, names, Function.comp_def]

theorem value?_pick_of_declared {columns : List Column} {name : String} (row : Row)
    (declared : name ∈ columns.map Column.name) :
    (pick columns row).value? name =
      some (if (columns.map Column.name).count name = 1 then (row.value? name).getD .null else .null) := by
  rw [pick, value?, List.lookup_graph _ (List.mem_eraseDups.mpr declared)]

theorem getD_pick (columns : List Column) (row : Row) (name : String) :
    ((pick columns row).value? name).getD .null =
      if (columns.map Column.name).count name = 1 then (row.value? name).getD .null else .null := by
  by_cases declared : name ∈ columns.map Column.name
  · rw [value?_pick_of_declared row declared, Option.getD_some]
  · have absent : (pick columns row).value? name = none := by
      rw [value?_eq_none_iff, names_pick, List.mem_eraseDups]
      exact declared
    rw [absent, Option.getD_none, if_neg (by rw [List.count_eq_zero.mpr declared]; exact Nat.zero_ne_one)]

theorem pick_of_names {columns : List Column} {row : Row} (distinct : (columns.map Column.name).Nodup)
    (names : row.names = columns.map Column.name) : row.pick columns = row := by
  have same : (row.pick columns).names = row.names := by
    rw [names_pick, eraseDups_of_nodup distinct, names]
  refine eq_of_names_of_value? same (same ▸ names ▸ distinct) fun name member => ?_
  rw [same] at member
  obtain ⟨value, held⟩ : ∃ value, row.value? name = some value := by
    cases absent : row.value? name with
    | none => exact absurd member (value?_eq_none_iff.mp absent)
    | some value => exact ⟨value, rfl⟩
  rw [value?_pick_of_declared row (names ▸ member), if_pos (List.count_eq_one_of_mem distinct (names ▸ member)),
    held, Option.getD_some]

def Alike (row other : Row) : Prop := ∀ name, (row.value? name).getD .null = (other.value? name).getD .null

section Conform

variable {table : String} {index : Nat} {columns : List Column} {source other target row : Row}

theorem Alike.vacate (alike : source.Alike other) (name : String) :
    (source.vacate name).Alike (other.vacate name) := by
  intro target
  by_cases same : target = name
  · rw [same, value?_vacate_self, value?_vacate_self]
  · rw [value?_vacate_of_ne source same, value?_vacate_of_ne other same, alike]

theorem conform_congr (alike : source.Alike other) :
    conform table index columns source target = conform table index columns other target := by
  induction columns generalizing source other target with
  | nil => rfl
  | cons column rest ih =>
      simp only [conform, alike column.name, ih (alike.vacate column.name)]

theorem conform_eq_pick (taken : conform table index columns source [] = .ok row) : row = pick columns source := by
  have names : row.names = (columns.map Column.name).eraseDups := (conforms_of_conform taken).names
  have distinct : row.names.Nodup := names ▸ nodup_eraseDups _
  refine eq_of_names_of_value? (names.trans (names_pick columns source).symm) distinct fun name member => ?_
  have declared : name ∈ columns.map Column.name := List.mem_eraseDups.mp (names ▸ member)
  rw [value?_conform declared taken, value?_pick_of_declared source declared]

end Conform

end Row

namespace Table

variable {name : String} {columns : List Column} {rows : List Row} {tables : List Table} {made : Table}

theorem conformAll_eq_pick {index : Nat} {conformed : List Row}
    (taken : conformAll name columns index rows = .ok conformed) : conformed = rows.map (Row.pick columns) := by
  induction rows generalizing index conformed with
  | nil =>
      cases taken
      rfl
  | cons row rest ih =>
      obtain ⟨first, here, later⟩ := bind_ok_iff.mp taken
      obtain ⟨others, behind, same⟩ := bind_ok_iff.mp later
      cases pure_ok_iff.mp same
      rw [Row.conform_eq_pick here, ih behind, List.map_cons]

theorem ofRows_eq_pick (taken : ofRows name columns rows = .ok made) :
    made = ⟨name, columns, rows.map (Row.pick columns)⟩ := by
  obtain ⟨conformed, passed, same⟩ := bind_ok_iff.mp taken
  cases pure_ok_iff.mp same
  rw [conformAll_eq_pick passed]

theorem ofRows_of_conforms (distinct : (columns.map Column.name).Nodup)
    (conforms : ∀ row ∈ rows, row.Conforms columns) : ofRows name columns rows = .ok ⟨name, columns, rows⟩ := by
  obtain ⟨made, taken⟩ : ∃ made, ofRows name columns rows = .ok made :=
    ofRows_ok_iff.mpr fun row member => (conforms row member).fits
  have same : rows.map (Row.pick columns) = rows := by
    refine (List.map_congr_left fun row member => ?_).trans (List.map_id _)
    exact Row.pick_of_names distinct ((conforms row member).names.trans (Row.eraseDups_of_nodup distinct))
  rw [taken, ofRows_eq_pick taken, same]

theorem stack_eq_pick (stacked : stack name tables = .ok made) :
    made = ⟨name, unionColumns (tables.map Table.columns),
      (tables.flatMap Table.rows).map (Row.pick (unionColumns (tables.map Table.columns)))⟩ :=
  ofRows_eq_pick stacked

theorem conformAll_congr {others : List Row} (alike : List.Forall₂ Row.Alike rows others) (index : Nat) :
    conformAll name columns index rows = conformAll name columns index others := by
  induction alike generalizing index with
  | nil => rfl
  | cons first later ih => rw [conformAll, conformAll, Row.conform_congr first, ih]

theorem ofRows_congr {others : List Row} (alike : List.Forall₂ Row.Alike rows others) :
    ofRows name columns rows = ofRows name columns others := by
  rw [ofRows, ofRows, conformAll_congr alike]

theorem pick_alike (conforming : ∀ table ∈ tables, table.Conforming) :
    List.Forall₂ Row.Alike
      ((tables.flatMap Table.rows).map (Row.pick (unionColumns (tables.map Table.columns))))
      (tables.flatMap Table.rows) := by
  rw [List.forall₂_map_left_iff, List.forall₂_same]
  intro row member name
  obtain ⟨table, inside, own⟩ := List.mem_flatMap.mp member
  rw [Row.getD_pick]
  by_cases declared : name ∈ (unionColumns (tables.map Table.columns)).map Column.name
  · rw [if_pos (List.count_eq_one_of_mem (nodup_unionColumns _) declared)]
  · have absent : row.value? name = none := by
      rw [Row.value?_eq_none_iff, mem_names_of_conforms (conforming table inside row own)]
      intro here
      obtain ⟨column, listed, rfl⟩ := List.mem_map.mp here
      refine declared ?_
      rw [names_unionColumns, List.mem_eraseDups]
      exact List.mem_map_of_mem (List.mem_flatten.mpr ⟨table.columns, List.mem_map_of_mem inside, listed⟩)
    rw [absent, Option.getD_none, ite_self]

theorem unionColumns_of_union (schemas : List (List Column)) :
    unionColumns [unionColumns schemas] = unionColumns schemas := by
  simp only [unionColumns_eq_foldl, List.flatten_cons, List.flatten_nil, List.append_nil, foldl_enlist_foldl]

theorem pick_of_conforms {row : Row} (conforms : row.Conforms columns) :
    row.pick (unionColumns [columns]) = row := by
  refine Row.pick_of_names (nodup_unionColumns _) ?_
  rw [conforms.names, names_unionColumns, List.flatten_singleton]

theorem stack_singleton {table : Table} (conforming : table.Conforming) :
    stack name [table] = .ok ⟨name, unionColumns [table.columns], table.rows⟩ := by
  have fits : ∀ row ∈ [table].flatMap Table.rows, row.Fits (unionColumns ([table].map Table.columns)) := by
    simp only [List.flatMap_cons, List.flatMap_nil, List.append_nil, List.map_cons, List.map_nil]
    intro row member name column found
    rw [find?_unionColumns, List.flatten_singleton] at found
    exact (conforming row member).fits name column found
  obtain ⟨made, stacked⟩ : ∃ made, stack name [table] = .ok made := ofRows_ok_iff.mpr fits
  have rows : table.rows.map (Row.pick (unionColumns [table.columns])) = table.rows :=
    (List.map_congr_left fun row member => pick_of_conforms (conforming row member)).trans (List.map_id _)
  rw [stacked, stack_eq_pick stacked]
  simp only [List.map_cons, List.map_nil, List.flatMap_cons, List.flatMap_nil, List.append_nil, rows]

/-- Tables that are stacked in two steps come to what they come to all at once, be it a table or the
refusal of a cell. -/
theorem stack_stacked {first second : String} {upper lower : List Table} {above below : Table}
    (conforming : ∀ table ∈ upper ++ lower, table.Conforming) (stacked : stack first upper = .ok above)
    (stacked' : stack second lower = .ok below) :
    stack name [above, below] = stack name (upper ++ lower) := by
  obtain ⟨here, there⟩ := List.forall_mem_append.mp conforming
  have alike := List.rel_append (pick_alike here) (pick_alike there)
  rw [stack_eq_pick stacked, stack_eq_pick stacked', stack, stack]
  simp only [List.map_cons, List.map_nil, unionColumns_union, List.flatMap_cons, List.flatMap_nil, List.append_nil,
    List.map_append, List.flatMap_append]
  exact ofRows_congr alike

theorem plays_refused_alike :
    let items : Table := ⟨"items", [⟨"item", .str⟩], [[("item", .string "a")], [("item", .string "b")]]⟩
    let plays : Table := ⟨"plays", [⟨"plays", .int64⟩], [[("plays", .number (.int 3))]]⟩
    let notes : Table := ⟨"notes", [⟨"plays", .str⟩, ⟨"item", .str⟩],
      [[("plays", .string "many"), ("item", .string "c")]]⟩
    (∀ table ∈ [items, plays] ++ [notes], table.Conforming) ∧
      ∃ above below, stack "upper" [items, plays] = .ok above ∧ stack "lower" [notes] = .ok below ∧
        above.rows.length = 3 ∧
        stack "all" [above, below] = .error (.typeMismatch "all" 3 "plays" .int64 "string") := by
  intro items plays notes
  have conforming : ∀ table ∈ [items, plays] ++ [notes], table.Conforming := by
    simp only [List.cons_append, List.nil_append, List.forall_mem_cons]
    exact ⟨conforming_of_taken rfl, conforming_of_taken rfl, conforming_of_taken rfl, List.forall_mem_nil _⟩
  refine ⟨conforming, _, _, rfl, rfl, rfl, ?_⟩
  rw [stack_stacked conforming rfl rfl]
  rfl

end Table

end Curator
