import Curator.Proofs.Engine.Service
/-!
Tables that agree on the types of their columns can be merged, stacked or joined: every value of a merged
row comes from a row of one of the tables, where it has the type that the merged schema declares. So of
the tasks that merge tables none is refused before its own columns come into play.
-/

set_option autoImplicit false

namespace Curator

namespace Table

def Consistent (tables : List Table) : Prop :=
  ∀ first ∈ tables.flatMap columns, ∀ second ∈ tables.flatMap columns, first.name = second.name →
    first.type = second.type

instance (tables : List Table) : Decidable (Consistent tables) :=
  inferInstanceAs (Decidable (∀ first ∈ tables.flatMap columns, ∀ second ∈ tables.flatMap columns,
    first.name = second.name → first.type = second.type))

def Drawn (tables : List Table) (row : Row) : Prop :=
  ∀ name value, row.value? name = some value →
    ∃ table ∈ tables, ∃ source ∈ table.rows, source.value? name = some value

variable {name : String} {tables : List Table} {row : Row}

theorem drawn_of_mem {table : Table} (inside : table ∈ tables) (member : row ∈ table.rows) : Drawn tables row :=
  fun _ _ held => ⟨table, inside, row, member, held⟩

theorem drawn_completed {column : String} {base : Table} {others : List Table} (member : row ∈ base.rows) :
    Drawn (base :: others) (completed column others row) := by
  have own : Drawn (base :: others) row := drawn_of_mem List.mem_cons_self member
  cases keyed : keyIn column row with
  | none =>
      rw [completed, keyed]
      exact own
  | some key =>
      intro name value held
      rw [value?_completed name keyed, Option.or_eq_some_iff] at held
      rcases held with held | ⟨-, sought⟩
      · exact own name value held
      · obtain ⟨other, inside, bound⟩ := List.exists_of_findSome?_eq_some sought
        obtain ⟨found, first, held⟩ := Option.bind_eq_some_iff.mp bound
        exact ⟨other, List.mem_cons_of_mem base inside, found, List.mem_of_find?_eq_some first, held⟩

section Merge

variable (conforming : ∀ table ∈ tables, table.Conforming) (consistent : Consistent tables)

include conforming consistent

theorem fits_of_drawn (drawn : Drawn tables row) : row.Fits (unionColumns (tables.map columns)) := by
  intro name column found
  rw [find?_unionColumns, ← List.flatMap_def] at found
  have named : column.name = name := by simpa using List.find?_some found
  cases held : row.value? name with
  | none => exact column.type.accepts_null
  | some value =>
      obtain ⟨table, inside, source, own, given⟩ := drawn name value held
      have conforms := conforming table inside source own
      -- The row that the value comes from has a declaration for it, and it is of the same type.
      have listed : name ∈ table.columns.map Column.name :=
        (mem_names_of_conforms conforms).mp (Row.mem_names_of_value? given)
      obtain ⟨declared, member, same⟩ := List.mem_map.mp listed
      obtain ⟨value', given', accepted⟩ := conforms.typed declared member
      rw [same, given] at given'
      cases given'
      have typed : declared.type = column.type :=
        consistent declared (List.mem_flatMap.mpr ⟨table, inside, member⟩) column (List.mem_of_find?_eq_some found)
          (same.trans named.symm)
      rw [← typed]
      exact accepted

theorem exists_stack (name : String) : ∃ merged, stack name tables = .ok merged := by
  refine ofRows_ok_iff.mpr fun row member => fits_of_drawn conforming consistent ?_
  obtain ⟨table, inside, own⟩ := List.mem_flatMap.mp member
  exact drawn_of_mem inside own

theorem exists_join (name column : String) : ∃ merged, join name column tables = .ok merged := by
  cases tables with
  | nil => exact ⟨_, rfl⟩
  | cons base others =>
      rw [join_cons]
      refine ofRows_ok_iff.mpr fun row member => fits_of_drawn conforming consistent ?_
      obtain ⟨given, own, rfl⟩ := List.mem_map.mp member
      exact drawn_completed own

theorem exists_merge (name : String) (column : Option String) : ∃ merged, merge name column tables = .ok merged := by
  cases column with
  | none => exact exists_stack conforming consistent name
  | some column => exact exists_join conforming consistent name column

end Merge

end Table

/-! The tasks that merge. -/

section Tasks

variable {tables : List Table} {merged : Table}

theorem Feature.assemble_of_merge {feature : Feature}
    (merging : Table.merge feature.name feature.join tables = .ok merged) :
    feature.assemble tables =
      (Table.restrict feature.name feature.columns merged).mapError (.schema feature.name) := by
  rw [assemble, merging]
  rfl

theorem Transform.assemble_of_merge {transform : Transform}
    (merging : Table.merge transform.name transform.join tables = .ok merged) :
    transform.assemble tables = Table.derive transform.name transform.actions merged >>= fun derived =>
      (Table.restrict transform.name transform.columns derived).mapError (.schema transform.name) := by
  rw [assemble, merging]
  rfl

theorem Scene.assemble_of_stack {scene : Scene} (stacked : Table.stack scene.name tables = .ok merged) :
    scene.assemble tables =
      ((Table.restrict scene.name scene.columns merged).mapError (.schema scene.name)).map fun shown =>
        scene.limit.elim shown shown.take := by
  rw [assemble, stacked]
  cases scene.limit <;> rfl

/-- Conforming tables with one type for each column are stacked, joined by any column, and so merged
without a refusal. Features, transforms, services and scenes come with them to what follows the merge,
where nothing but actions and declared columns can fail. -/
theorem Table.consistent_merges (conforming : ∀ table ∈ tables, table.Conforming)
    (consistent : Table.Consistent tables) :
    (∀ name, ∃ merged, Table.stack name tables = .ok merged) ∧
      (∀ name column, ∃ merged, Table.join name column tables = .ok merged) ∧
      (∀ name column, ∃ merged, Table.merge name column tables = .ok merged) ∧
      (∀ feature : Feature, ∃ merged, Table.merge feature.name feature.join tables = .ok merged ∧
        feature.assemble tables =
          (Table.restrict feature.name feature.columns merged).mapError (.schema feature.name)) ∧
      (∀ transform : Transform, ∃ merged, Table.merge transform.name transform.join tables = .ok merged ∧
        transform.assemble tables = Table.derive transform.name transform.actions merged >>= fun derived =>
          (Table.restrict transform.name transform.columns derived).mapError (.schema transform.name)) ∧
      (∀ service : Service, ∃ merged, Table.stack service.name tables = .ok merged ∧
        service.assemble tables = (Table.restrict service.name service.columns
          ⟨service.name, merged.columns, service.arrange merged.rows⟩).mapError (.schema service.name)) ∧
      ∀ scene : Scene, ∃ merged, Table.stack scene.name tables = .ok merged ∧
        scene.assemble tables =
          ((Table.restrict scene.name scene.columns merged).mapError (.schema scene.name)).map fun shown =>
            scene.limit.elim shown shown.take := by
  have stack := Table.exists_stack conforming consistent
  have merge := Table.exists_merge conforming consistent
  refine ⟨stack, Table.exists_join conforming consistent, merge, fun feature => ?_, fun transform => ?_,
    fun service => ?_, fun scene => ?_⟩
  · obtain ⟨merged, merging⟩ := merge feature.name feature.join
    exact ⟨merged, merging, Feature.assemble_of_merge merging⟩
  · obtain ⟨merged, merging⟩ := merge transform.name transform.join
    exact ⟨merged, merging, Transform.assemble_of_merge merging⟩
  · obtain ⟨merged, stacked⟩ := stack service.name
    exact ⟨merged, stacked, Service.assemble_of_stack stacked⟩
  · obtain ⟨merged, stacked⟩ := stack scene.name
    exact ⟨merged, stacked, Scene.assemble_of_stack stacked⟩

theorem Table.titles_joined :
    let ratings : Table := ⟨"ratings", [⟨"item", .str⟩, ⟨"score", .double⟩],
      [[("item", .string "a"), ("score", .number (.double 0.5))],
        [("item", .null), ("score", .number (.double 0.1))]]⟩
    let titles : Table := ⟨"titles", [⟨"title", .str⟩, ⟨"item", .str⟩],
      [[("title", .string "First"), ("item", .string "a")]]⟩
    (∀ table ∈ [ratings, titles], table.Conforming) ∧ Table.Consistent [ratings, titles] ∧
      ∃ merged, Table.join "titled" "item" [ratings, titles] = .ok merged ∧ merged.rows =
        [[("item", .string "a"), ("score", .number (.double 0.5)), ("title", .string "First")],
          [("item", .null), ("score", .number (.double 0.1)), ("title", .null)]] := by
  intro ratings titles
  have conforming : ∀ table ∈ [ratings, titles], table.Conforming := by
    simp only [List.forall_mem_cons]
    exact ⟨Table.conforming_of_taken rfl, Table.conforming_of_taken rfl, List.forall_mem_nil _⟩
  have consistent : Table.Consistent [ratings, titles] := by decide
  obtain ⟨merged, joined⟩ := (Table.consistent_merges conforming consistent).2.1 "titled" "item"
  refine ⟨conforming, consistent, merged, joined, ?_⟩
  rw [Table.join_cons] at joined
  cases joined
  rfl

end Tasks

end Curator
