import Curator.Proofs.Table.Revalidation
import Mathlib.Data.List.Induction
import Mathlib.Data.List.Nodup
import Std.Data.HashMap.Lemmas
/-!
What a join comes to, said without an index: a left join by nested loops, in which every row of the
first table goes through the rows of the other tables, one table after the other.
-/

set_option autoImplicit false

namespace Curator

/-! The columns of several schemas together. -/

theorem eraseDups_concat (names : List String) (name : String) :
    (names ++ [name]).eraseDups = if name ∈ names then names.eraseDups else names.eraseDups ++ [name] := by
  rw [List.eraseDups_append]
  by_cases known : name ∈ names
  · simp [List.removeAll, known]
  · rw [if_neg known]
    simp [List.removeAll, known, List.eraseDups_cons]

theorem nodup_eraseDups (names : List String) : names.eraseDups.Nodup := by
  induction names using List.reverseRecOn with
  | nil => exact List.nodup_nil
  | append_singleton names name ih =>
      rw [eraseDups_concat]
      by_cases known : name ∈ names
      · rwa [if_pos known]
      · rw [if_neg known]
        refine List.nodup_append.mpr ⟨ih, by simp, fun other member last single same => known ?_⟩
        rw [← List.mem_singleton.mp single, ← same]
        exact List.mem_eraseDups.mp member

theorem names_unionColumns (schemas : List (List Column)) :
    (unionColumns schemas).map Column.name = (schemas.flatten.map Column.name).eraseDups := by
  rw [unionColumns]
  induction schemas.flatten using List.reverseRecOn with
  | nil => rfl
  | append_singleton columns column ih =>
      rw [List.foldl_append, List.foldl_cons, List.foldl_nil, List.map_append, List.map_singleton, eraseDups_concat,
        ← ih]
      generalize columns.foldl _ _ = known at ih ⊢
      have listed : known.any (·.name = column.name) = true ↔ column.name ∈ columns.map Column.name := by
        rw [← List.mem_eraseDups, ← ih]
        simp [List.any_eq_true, List.mem_map]
      by_cases declared : column.name ∈ columns.map Column.name
      · rw [if_pos (listed.mpr declared), if_pos declared]
      · rw [if_neg (mt listed.mp declared), if_neg declared, List.map_append, List.map_singleton]

namespace Row

theorem value?_eq_none_iff {row : Row} {name : String} : row.value? name = none ↔ name ∉ row.names := by
  induction row with
  | nil => simp [value?, names]
  | cons member rest ih =>
      rcases member with ⟨other, value⟩
      by_cases same : name = other
      · simp [value?, names, same]
      · have apart : (name == other) = false := by simpa using same
        simpa [value?, names, List.lookup_cons, apart, same] using ih

theorem mem_names_of_value? {row : Row} {name : String} {value : Json} (held : row.value? name = some value) :
    name ∈ row.names := by
  by_contra absent
  rw [value?_eq_none_iff.mpr absent] at held
  cases held

theorem value?_append (row other : Row) (name : String) :
    value? (row ++ other) name = (row.value? name).or (other.value? name) := by
  rw [value?, List.lookup_append]
  rfl

end Row

namespace Table

/-! The index. -/

theorem keyIn_eq_none_iff {column : String} {row : Row} :
    keyIn column row = none ↔ ∀ value, row.value? column = some value →
      value = .null ∨ (∃ items, value = .array items) ∨ ∃ members, value = .object members := by
  rw [keyIn, Option.bind_eq_none_iff]
  refine forall₂_congr fun value _ => ?_
  cases value with
  | null | array | object | string | number => simp [Json.key?]
  | bool truth => cases truth <;> simp [Json.key?]

def firstUnder (column key : String) (rows : List Row) : Option Row :=
  rows.find? fun row => keyIn column row = some key

theorem getElem?_insertIfNew_or (known : Std.HashMap String Row) (under key : String) (row : Row) :
    (known.insertIfNew under row)[key]? = known[key]?.or (if under = key then some row else none) := by
  rw [Std.HashMap.getElem?_insertIfNew]
  by_cases same : under = key
  · subst same
    cases found : known[under]? with
    | none => simp [← Std.HashMap.isSome_getElem?_iff_mem, found]
    | some first => simp [← Std.HashMap.isSome_getElem?_iff_mem, found]
  · simp [same]

theorem getElem?_index (column key : String) (rows : List Row) :
    (index column rows)[key]? = firstUnder column key rows := by
  -- Whatever the index has to begin with, later rows are only found under keys that it does not have.
  have further (known : Std.HashMap String Row) :
      (rows.foldl (fun known row => (keyIn column row).elim known (known.insertIfNew · row)) known)[key]? =
        known[key]?.or (firstUnder column key rows) := by
    induction rows generalizing known with
    | nil => simp [firstUnder]
    | cons row rest ih =>
        rw [List.foldl_cons, ih]
        cases keyed : keyIn column row with
        | none => simp [firstUnder, keyed]
        | some under =>
            rw [Option.elim_some, getElem?_insertIfNew_or, Option.or_assoc]
            by_cases same : under = key <;> simp [firstUnder, keyed, same]
  have built : index column rows =
      rows.foldl (fun known row => (keyIn column row).elim known (known.insertIfNew · row)) ∅ := by
    rw [index]
    congr 1
    funext known row
    cases keyIn column row <;> rfl
  rw [built, further]
  simp

/-! Rows that are completed from others. -/

theorem value?_adopt (row other : Row) (name : String) :
    Row.value? (adopt row other) name = (Row.value? row name).or (Row.value? other name) := by
  rw [adopt]
  induction other generalizing row with
  | nil => simp [Row.value?]
  | cons member rest ih =>
      rcases member with ⟨first, value⟩
      rw [List.foldl_cons, ih]
      change _ = (Row.value? row name).or (Row.value? ([(first, value)] ++ rest) name)
      rw [Row.value?_append, ← Option.or_assoc]
      congr 1
      by_cases has : row.has first
      · rw [if_pos has]
        by_cases same : name = first
        · subst same
          rw [Option.or_of_isSome has]
        · have apart : (name == first) = false := by simpa using same
          simp [Row.value?, List.lookup_cons, apart]
      · rw [if_neg has, Row.value?_append]

def adoptFrom (column key : String) (row : Row) (other : Table) : Row :=
  (firstUnder column key other.rows).elim row (adopt row)

theorem value?_adoptFrom (column key : String) (row : Row) (other : Table) (name : String) :
    (adoptFrom column key row other).value? name =
      (row.value? name).or ((firstUnder column key other.rows).bind (Row.value? · name)) := by
  rw [adoptFrom]
  cases firstUnder column key other.rows with
  | none => simp
  | some found => exact value?_adopt row found name

def completed (column : String) (others : List Table) (row : Row) : Row :=
  match keyIn column row with
  | none => row
  | some key => others.foldl (adoptFrom column key) row

theorem join_cons (name column : String) (base : Table) (others : List Table) :
    join name column (base :: others) =
      ofRows name (unionColumns ((base :: others).map columns)) (base.rows.map (completed column others)) := by
  rw [join]
  congr 1
  refine List.map_congr_left fun row _ => ?_
  rw [completed]
  cases keyIn column row with
  | none => rfl
  | some key =>
      dsimp only
      rw [List.foldl_map]
      congr 1
      funext known other
      rw [getElem?_index, adoptFrom]
      cases firstUnder column key other.rows <;> rfl

theorem value?_completed {column key : String} {others : List Table} {row : Row} (name : String)
    (keyed : keyIn column row = some key) :
    Row.value? (completed column others row) name =
      (row.value? name).or
        (others.findSome? fun other => (firstUnder column key other.rows).bind (Row.value? · name)) := by
  have further (known : Row) :
      Row.value? (others.foldl (adoptFrom column key) known) name =
        (known.value? name).or
          (others.findSome? fun other => (firstUnder column key other.rows).bind (Row.value? · name)) := by
    induction others generalizing known with
    | nil => simp
    | cons other rest ih =>
        rw [List.foldl_cons, ih, value?_adoptFrom, Option.or_assoc, List.findSome?_cons]
        cases (firstUnder column key other.rows).bind (Row.value? · name) <;> rfl
  rw [completed, keyed]
  exact further row

section Nested

variable {name column : String} {base : Table} {others : List Table} {row : Row}

-- What the other tables have under a name for a row of the first table: the value in the first row of
-- the same key in the first of them that declares the name and has such a row.
def sought (column : String) (others : List Table) (row : Row) (name : String) : Json :=
  match keyIn column row with
  | none => .null
  | some key =>
      (others.findSome? fun other =>
        if name ∈ other.columns.map Column.name then
          (firstUnder column key other.rows).map fun found => (Row.value? found name).getD .null
        else none).getD .null

def added (base : Table) (others : List Table) : List String :=
  ((unionColumns ((base :: others).map Table.columns)).map Column.name).filter (· ∉ base.columns.map Column.name)

def extended (column : String) (base : Table) (others : List Table) (row : Row) : Row :=
  row ++ (added base others).map fun name => (name, sought column others row name)

def nestedLoop (name column : String) (base : Table) (others : List Table) : Table :=
  ⟨name, unionColumns ((base :: others).map Table.columns), base.rows.map (extended column base others)⟩

theorem mem_names_of_conforms {columns : List Column} (conforms : row.Conforms columns) :
    name ∈ row.names ↔ name ∈ columns.map Column.name := by
  rw [conforms.names, List.mem_eraseDups]

theorem value?_firstUnder {key : String} {other : Table} (conforming : other.Conforming) :
    (firstUnder column key other.rows).bind (Row.value? · name) =
      if name ∈ other.columns.map Column.name then
        (firstUnder column key other.rows).map fun found => (Row.value? found name).getD .null
      else none := by
  cases first : firstUnder column key other.rows with
  | none => simp
  | some found =>
      have conforms := conforming found (List.mem_of_find?_eq_some first)
      by_cases declared : name ∈ other.columns.map Column.name
      · rw [if_pos declared]
        obtain ⟨value, held⟩ : ∃ value, found.value? name = some value := by
          rw [← Option.ne_none_iff_exists', ne_eq, Row.value?_eq_none_iff, not_not, mem_names_of_conforms conforms]
          exact declared
        simp [held]
      · rw [if_neg declared]
        exact Row.value?_eq_none_iff.mpr (mt (mem_names_of_conforms conforms).mp declared)

theorem value?_completed_of_fresh (conforming : ∀ table ∈ others, table.Conforming)
    (fresh : row.value? name = none) :
    ((completed column others row).value? name).getD .null = sought column others row name := by
  rw [sought]
  cases keyed : keyIn column row with
  | none => simp [completed, keyed, fresh]
  | some key =>
      dsimp only
      rw [value?_completed name keyed, fresh, Option.none_or]
      congr 1
      induction others with
      | nil => rfl
      | cons other rest ih =>
          obtain ⟨first, later⟩ := List.forall_mem_cons.mp conforming
          rw [List.findSome?_cons, List.findSome?_cons, value?_firstUnder first, ih later]

theorem value?_completed_of_held {value : Json} (held : row.value? name = some value) :
    (completed column others row).value? name = some value := by
  cases keyed : keyIn column row with
  | none => rw [completed, keyed, held]
  | some key => rw [value?_completed name keyed, held, Option.some_or]

theorem names_unionColumns_cons :
    (unionColumns ((base :: others).map Table.columns)).map Column.name =
      (base.columns.map Column.name).eraseDups ++ added base others := by
  rw [added, names_unionColumns, List.map_cons, List.flatten_cons, List.map_append, List.eraseDups_append,
    List.filter_append]
  have own : (base.columns.map Column.name).eraseDups.filter (· ∉ base.columns.map Column.name) = [] := by
    refine List.filter_eq_nil_iff.mpr fun name member => ?_
    simpa using List.mem_eraseDups.mp member
  rw [own, List.nil_append]
  congr 1
  refine (List.filter_eq_self.mpr fun name member => ?_).symm
  simpa [List.removeAll] using (List.mem_filter.mp (List.mem_eraseDups.mp member)).2

theorem names_extended (conforms : row.Conforms base.columns) :
    (extended column base others row).names =
      (unionColumns ((base :: others).map Table.columns)).map Column.name := by
  rw [names_unionColumns_cons, ← conforms.names, extended]
  simp [Row.names, Function.comp_def]

theorem value?_extended_of_declared (conforms : row.Conforms base.columns)
    (declared : name ∈ base.columns.map Column.name) :
    (extended column base others row).value? name = row.value? name := by
  obtain ⟨value, held⟩ : ∃ value, row.value? name = some value := by
    obtain ⟨own, member, rfl⟩ := List.mem_map.mp declared
    obtain ⟨value, held, -⟩ := conforms.typed own member
    exact ⟨value, held⟩
  rw [extended, Row.value?_append, held, Option.some_or]

theorem value?_extended_of_fresh (conforms : row.Conforms base.columns) (fresh : name ∈ added base others) :
    (extended column base others row).value? name = some (sought column others row name) := by
  have absent : row.value? name = none := by
    rw [Row.value?_eq_none_iff, mem_names_of_conforms conforms]
    simpa using (List.mem_filter.mp fresh).2
  rw [extended, Row.value?_append, absent, Option.none_or, Row.value?, List.lookup_graph _ fresh]

theorem filter_extended (conforms : row.Conforms base.columns) :
    (extended column base others row).filter (fun member => member.1 ∈ base.columns.map Column.name) = row := by
  have own : row.filter (fun member => member.1 ∈ base.columns.map Column.name) = row := by
    refine List.filter_eq_self.mpr fun member inside => ?_
    exact decide_eq_true ((mem_names_of_conforms conforms).mp (List.mem_map_of_mem inside))
  have others : ((added base others).map fun name => (name, sought column others row name)).filter
      (fun member => member.1 ∈ base.columns.map Column.name) = [] := by
    refine List.filter_eq_nil_iff.mpr fun member inside => ?_
    obtain ⟨name, fresh, rfl⟩ := List.mem_map.mp inside
    simpa using (List.mem_filter.mp fresh).2
  rw [extended, List.filter_append, own, others, List.append_nil]

theorem eq_extended_of_conform {index : Nat} {result : Row} (conforming : ∀ table ∈ others, table.Conforming)
    (conforms : row.Conforms base.columns)
    (taken : Row.conform name index (unionColumns ((base :: others).map Table.columns))
      (completed column others row) [] = .ok result) :
    result = extended column base others row := by
  have distinct : ((unionColumns ((base :: others).map Table.columns)).map Column.name).Nodup := by
    rw [names_unionColumns]
    exact nodup_eraseDups _
  have names : result.names = (unionColumns ((base :: others).map Table.columns)).map Column.name :=
    (Row.conforms_of_conform taken).names.trans (Row.eraseDups_of_nodup distinct)
  refine Row.eq_of_names_of_value? (names.trans (names_extended conforms).symm) (names ▸ distinct) ?_
  intro name member
  have declared := names ▸ member
  rw [Row.value?_conform declared taken, if_pos (List.count_eq_one_of_mem distinct declared)]
  by_cases own : name ∈ base.columns.map Column.name
  · rw [value?_extended_of_declared conforms own]
    obtain ⟨column, inside, rfl⟩ := List.mem_map.mp own
    obtain ⟨value, held, -⟩ := conforms.typed column inside
    rw [value?_completed_of_held held, held, Option.getD_some]
  · have absent : row.value? name = none :=
      Row.value?_eq_none_iff.mpr (mt (mem_names_of_conforms conforms).mp own)
    rw [value?_extended_of_fresh conforms (List.mem_filter.mpr ⟨declared, by simpa using own⟩),
      value?_completed_of_fresh conforming absent]

theorem conformAll_completed {index : Nat} {rows conformed : List Row}
    (conforming : ∀ table ∈ others, table.Conforming) (conforms : ∀ row ∈ rows, row.Conforms base.columns)
    (taken : conformAll name (unionColumns ((base :: others).map Table.columns)) index
      (rows.map (completed column others)) = .ok conformed) :
    conformed = rows.map (extended column base others) := by
  induction rows generalizing index conformed with
  | nil =>
      cases taken
      rfl
  | cons row rest ih =>
      obtain ⟨first, later⟩ := List.forall_mem_cons.mp conforms
      obtain ⟨result, here, behind⟩ := bind_ok_iff.mp taken
      obtain ⟨results, further, same⟩ := bind_ok_iff.mp behind
      cases pure_ok_iff.mp same
      rw [eq_extended_of_conform conforming first here, ih later further, List.map_cons]

/-- A join that succeeds is the left join by nested loops: it has the rows of the first table in their
order, each unchanged in the columns of the first table, and every other column of the result holds the
value that `sought` finds in the other tables. -/
theorem join_eq_nestedLoop {made : Table} (conforming : ∀ table ∈ base :: others, table.Conforming)
    (joined : join name column (base :: others) = .ok made) :
    made = nestedLoop name column base others ∧
      List.Forall₂ (fun row result =>
        result.filter (fun member => member.1 ∈ base.columns.map Column.name) = row ∧
          ∀ declared ∈ made.columns, declared.name ∉ base.columns.map Column.name →
            result.value? declared.name = some (sought column others row declared.name))
        base.rows made.rows := by
  obtain ⟨first, later⟩ := List.forall_mem_cons.mp conforming
  rw [join_cons] at joined
  obtain ⟨conformed, passed, same⟩ := bind_ok_iff.mp joined
  cases pure_ok_iff.mp same
  have rows := conformAll_completed later first passed
  subst rows
  refine ⟨rfl, ?_⟩
  rw [List.forall₂_map_right_iff, List.forall₂_same]
  intro row member
  refine ⟨filter_extended (first row member), fun declared inside foreign => ?_⟩
  have fresh : declared.name ∈ added base others :=
    List.mem_filter.mpr ⟨List.mem_map_of_mem inside, by simpa using foreign⟩
  exact value?_extended_of_fresh (first row member) fresh

theorem nulls_shadow_later_tables :
    let items : Table := ⟨"items", [⟨"item", .str⟩],
      [[("item", .string "a")], [("item", .string "b")], [("item", .null)]]⟩
    let stats : Table := ⟨"stats", [⟨"item", .str⟩, ⟨"ctr", .double⟩],
      [[("item", .string "a"), ("ctr", .null)], [("item", .string "a"), ("ctr", .number (.double 0.9))]]⟩
    let late : Table := ⟨"late", [⟨"ctr", .double⟩, ⟨"item", .str⟩, ⟨"page", .str⟩],
      [[("ctr", .number (.double 0.5)), ("item", .string "a"), ("page", .string "home")]]⟩
    (∀ table ∈ [items, stats, late], table.Conforming) ∧
      ∃ made, join "joined" "item" [items, stats, late] = .ok made ∧ made.rows =
        [[("item", .string "a"), ("ctr", .null), ("page", .string "home")],
          [("item", .string "b"), ("ctr", .null), ("page", .null)],
          [("item", .null), ("ctr", .null), ("page", .null)]] := by
  intro items stats late
  have conforming : ∀ table ∈ [items, stats, late], table.Conforming := by
    have taken : ∀ table ∈ [items, stats, late], ofRows table.name table.columns table.rows = .ok table := by
      simp only [List.forall_mem_cons]
      exact ⟨rfl, rfl, rfl, List.forall_mem_nil _⟩
    exact fun table member => (ofRows_made (taken table member)).2.2
  have joined : ∃ made, join "joined" "item" [items, stats, late] = .ok made := by
    rw [join_cons]
    exact ⟨_, rfl⟩
  obtain ⟨made, joined⟩ := joined
  refine ⟨conforming, made, joined, ?_⟩
  rw [(join_eq_nestedLoop conforming joined).1]
  rfl

end Nested

end Table

end Curator
