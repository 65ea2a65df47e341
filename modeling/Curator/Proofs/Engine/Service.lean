import Curator.Engine.Meaning
import Curator.Engine.Work
import Curator.Proofs.Table.Distinct
import Curator.Proofs.Table.Order
import Curator.Proofs.Table.Stack
/-!
What services make of the tables that they are given and of those that they pull: of the rows of all of
them some stay, each key once, in the order of a column, up to a limit. A service that pulls nothing
leaves its own result as it is.
-/

set_option autoImplicit false

namespace Curator

/-! What a schema does to keys and numbers. -/

namespace Row

theorem keyIn_eq_getD (column : String) (row : Row) :
    Table.keyIn column row = Json.key? ((row.value? column).getD .null) := by
  rw [Table.keyIn]
  cases row.value? column <;> rfl

theorem numberIn_eq_getD (column : String) (row : Row) :
    numberIn column row = Json.float? ((row.value? column).getD .null) := by
  rw [numberIn]
  cases row.value? column <;> rfl

variable {column : String} {columns : List Column}

theorem keyIn_pick (row : Row) :
    Table.keyIn column (row.pick columns) =
      if (columns.map Column.name).count column = 1 then Table.keyIn column row else none := by
  rw [keyIn_eq_getD, getD_pick, keyIn_eq_getD]
  split <;> rfl

theorem numberIn_pick (row : Row) :
    numberIn column (row.pick columns) =
      if (columns.map Column.name).count column = 1 then numberIn column row else none := by
  rw [numberIn_eq_getD, getD_pick, numberIn_eq_getD]
  split <;> rfl

theorem Finite.pick {row : Row} (finite : row.Finite) (columns : List Column) : (row.pick columns).Finite := by
  intro member inside
  obtain ⟨name, -, rfl⟩ := List.mem_map.mp inside
  dsimp only
  split
  · cases held : row.value? name with
    | none => rfl
    | some value => exact finite.value? held
  · rfl

theorem InOrder.pick {direction : Direction} {first second : Row} (ahead : InOrder column direction first second)
    (columns : List Column) : InOrder column direction (first.pick columns) (second.pick columns) := by
  rw [InOrder, numberIn_pick, numberIn_pick]
  split
  · exact ahead
  · intro number impossible
    cases impossible

end Row

theorem Table.nodup_keys_pick {column : String} {rows : List Row} (distinct : (Table.keys column rows).Nodup)
    (columns : List Column) : (Table.keys column (rows.map (Row.pick columns))).Nodup := by
  rw [Table.keys, List.filterMap_map]
  by_cases once : (columns.map Column.name).count column = 1
  · have same : Table.keyIn column ∘ Row.pick columns = Table.keyIn column := by
      funext row
      exact (Row.keyIn_pick row).trans (if_pos once)
    rwa [same]
  · have none : Table.keyIn column ∘ Row.pick columns = fun _ => none := by
      funext row
      exact (Row.keyIn_pick row).trans (if_neg once)
    rw [none]
    simp

namespace Service

variable {service : Service} {merged rows : List Row}

def direction (service : Service) : Direction := if service.descending then .descending else .ascending

/-! The steps of the arrangement. -/

def distinct (service : Service) (rows : List Row) : List Row :=
  match service.dedupBy with
  | some column => Table.distinctBy column rows
  | none => rows

def ordered (service : Service) (rows : List Row) : List Row :=
  match service.orderBy with
  | some column => Row.orderBy column service.direction rows
  | none => rows

theorem arrange_eq (service : Service) (rows : List Row) :
    service.arrange rows = Ranking.cut service.limit (service.ordered (service.distinct rows)) := rfl

theorem distinct_sublist (service : Service) (rows : List Row) : (service.distinct rows).Sublist rows := by
  rw [distinct]
  cases service.dedupBy with
  | none => exact List.Sublist.refl rows
  | some column => exact Table.distinctAfter_sublist column [] rows

theorem ordered_perm (service : Service) (rows : List Row) : (service.ordered rows).Perm rows := by
  rw [ordered]
  cases service.orderBy with
  | none => exact .refl rows
  | some column => exact List.mergeSort_perm rows _

theorem cut_sublist (limit : Option Nat) (rows : List Row) : (Ranking.cut limit rows).Sublist rows := by
  cases limit with
  | none => exact List.Sublist.refl rows
  | some limit => exact List.take_sublist limit rows

structure Arranged (service : Service) (rows : List Row) : Prop where
  distinct : ∀ column, service.dedupBy = some column → (Table.keys column rows).Nodup
  sorted : ∀ column, service.orderBy = some column → rows.Pairwise (Row.InOrder column service.direction)
  short : ∀ limit, service.limit = some limit → rows.length ≤ limit

theorem Arranged.arrange (arranged : service.Arranged rows) : service.arrange rows = rows := by
  have distinct : service.distinct rows = rows := by
    rw [Service.distinct]
    cases keyed : service.dedupBy with
    | none => rfl
    | some column => exact Table.distinctBy_of_nodup (arranged.distinct column keyed)
  have ordered : service.ordered rows = rows := by
    rw [Service.ordered]
    cases sorted : service.orderBy with
    | none => rfl
    | some column => exact Row.orderBy_of_sorted (arranged.sorted column sorted)
  rw [arrange_eq, distinct, ordered]
  cases limited : service.limit with
  | none => rfl
  | some limit => exact List.take_of_length_le (arranged.short limit limited)

theorem Arranged.pick (arranged : service.Arranged rows) (columns : List Column) :
    service.Arranged (rows.map (Row.pick columns)) where
  distinct column keyed := Table.nodup_keys_pick (arranged.distinct column keyed) columns
  sorted column sorted := List.pairwise_map.mpr ((arranged.sorted column sorted).imp fun ahead => ahead.pick columns)
  short limit limited := by
    rw [List.length_map]
    exact arranged.short limit limited

/-- What a service shows of merged rows. The rows at the kept positions are put in order, and the limit
cuts them. Without a column for keys all positions are kept; with one, a row is left out for one ahead of
it that is kept and has the same key, and for nothing else. -/
structure Selects (service : Service) (merged : List Row) (kept : List Nat) (uncut shown : List Row) : Prop where
  all : service.dedupBy = none → kept = List.range merged.length
  leads : ∀ column, service.dedupBy = some column → Table.Leads column merged kept
  unique : ∀ column, service.dedupBy = some column → (Table.keys column uncut).Nodup
  unordered : service.orderBy = none → uncut = Table.rowsAt merged kept
  ordered : ∀ column, service.orderBy = some column →
    Row.Ordered column service.direction (Table.rowsAt merged kept) uncut
  cut : shown = match service.limit with
    | some limit => uncut.take limit
    | none => uncut

theorem rowsAt_range (rows : List Row) : Table.rowsAt rows (List.range rows.length) = rows := by
  induction rows using List.reverseRecOn with
  | nil => rfl
  | append_singleton rows row ih =>
      have inside : ∀ index ∈ List.range rows.length, index < rows.length := fun _ => List.mem_range.mp
      rw [List.length_append, List.length_singleton, List.range_succ, Table.rowsAt, List.filterMap_append]
      exact congrArg₂ (· ++ ·) ((Table.rowsAt_append inside row).trans ih) (Table.rowsAt_length row)

theorem exists_kept (service : Service) (rows : List Row) :
    ∃ kept, (service.dedupBy = none → kept = List.range rows.length) ∧
      (∀ column, service.dedupBy = some column → Table.Leads column rows kept) ∧
      service.distinct rows = Table.rowsAt rows kept := by
  rw [distinct]
  cases service.dedupBy with
  | none => exact ⟨List.range rows.length, fun _ => rfl, nofun, (rowsAt_range rows).symm⟩
  | some column =>
      obtain ⟨kept, leads, left⟩ := Table.exists_leads column rows
      refine ⟨kept, nofun, fun other same => ?_, left⟩
      cases same
      exact leads

theorem nodup_keys_ordered {column : String} (keyed : service.dedupBy = some column) (rows : List Row) :
    (Table.keys column (service.ordered (service.distinct rows))).Nodup := by
  have distinct : service.distinct rows = Table.distinctBy column rows := by
    rw [Service.distinct, keyed]
  rw [Table.keys, ((service.ordered_perm _).filterMap _).nodup_iff, distinct]
  exact Table.nodup_keys_distinctBy

theorem ordered_ordered {column : String} (sorted : service.orderBy = some column)
    (finite : ∀ row ∈ rows, row.Finite) :
    Row.Ordered column service.direction (service.distinct rows) (service.ordered (service.distinct rows)) := by
  rw [ordered, sorted]
  exact Row.orderBy_ordered fun row member => finite row ((service.distinct_sublist rows).subset member)

theorem selects_arrange (service : Service) (finite : ∀ row ∈ merged, row.Finite) :
    ∃ kept uncut, service.Selects merged kept uncut (service.arrange merged) := by
  obtain ⟨kept, all, leads, left⟩ := service.exists_kept merged
  refine ⟨kept, service.ordered (service.distinct merged), all, leads, ?_, ?_, ?_, ?_⟩
  · exact fun column keyed => nodup_keys_ordered keyed merged
  · intro unordered
    rw [ordered, unordered, left]
  · intro column sorted
    exact left ▸ ordered_ordered sorted finite
  · rw [arrange_eq]
    cases service.limit <;> rfl

theorem arranged_arrange (service : Service) (finite : ∀ row ∈ merged, row.Finite) :
    service.Arranged (service.arrange merged) := by
  have cut := cut_sublist service.limit (service.ordered (service.distinct merged))
  refine ⟨fun column keyed => ?_, fun column sorted => ?_, fun limit limited => ?_⟩
  · exact (nodup_keys_ordered keyed merged).sublist (cut.filterMap _)
  · exact (ordered_ordered sorted finite).sorted.sublist cut
  · rw [arrange_eq, limited]
    exact List.length_take_le _ _

theorem arrange_subperm (service : Service) (rows : List Row) : (service.arrange rows).Subperm rows :=
  (cut_sublist service.limit _).subperm.trans
    ((service.ordered_perm _).subperm.trans (service.distinct_sublist rows).subperm)

/-! The tables of a service. -/

section Tables

variable {tables input : List Table} {table made : Table}

theorem finite_of_stack (finite : ∀ table ∈ tables, ∀ row ∈ table.rows, row.Finite)
    (stacked : Table.stack service.name tables = .ok made) : ∀ row ∈ made.rows, row.Finite := by
  rw [Table.stack_eq_pick stacked]
  intro row member
  obtain ⟨given, inside, rfl⟩ := List.mem_map.mp member
  obtain ⟨table, own, held⟩ := List.mem_flatMap.mp inside
  exact (finite table own given held).pick _

theorem ofRows_of_subset {name : String} (fixed : made.Fixed) (inside : rows ⊆ made.rows) :
    Table.ofRows name made.columns rows = .ok ⟨name, made.columns, rows⟩ :=
  bind_ok_iff.mpr ⟨rows, Table.conformAll_of_fixed (fun row member => fixed row (inside member)) 0, rfl⟩

theorem ofRows_arrange (stacked : Table.stack service.name tables = .ok made) :
    Table.ofRows service.name made.columns (service.arrange made.rows) =
      .ok ⟨service.name, made.columns, service.arrange made.rows⟩ :=
  ofRows_of_subset (Table.ofRows_fixed stacked) (service.arrange_subperm made.rows).subset

theorem assemble_of_stack (stacked : Table.stack service.name tables = .ok made) :
    service.assemble tables =
      (Table.restrict service.name service.columns
        ⟨service.name, made.columns, service.arrange made.rows⟩).mapError (.schema service.name) := by
  rw [assemble, stacked]
  change ((Table.ofRows service.name made.columns (service.arrange made.rows)).mapError _ >>= _) = _
  rw [ofRows_arrange stacked]
  rfl

/-- A service merges the rows that it is given, and behind them those that it pulls, and shows of them
what it selects. From then on only its declared columns can refuse a row. What is shown is a part of
the merged rows, in which no key repeats, in order and within the limit. -/
theorem plan_selects (service : Service) (request : Request) (input : List Table) :
    ∃ next, (Task.service service).plan request input = .pull service.pulls next ∧
      ∀ pulled merged, (∀ table ∈ input ++ pulled, ∀ row ∈ table.rows, row.Finite) →
        Table.stack service.name (input ++ pulled) = .ok merged →
          let shown := service.arrange merged.rows
          Table.ofRows service.name merged.columns shown = .ok ⟨service.name, merged.columns, shown⟩ ∧
            next pulled = .ofTable ((Table.restrict service.name service.columns
              ⟨service.name, merged.columns, shown⟩).mapError (.schema service.name)) ∧
            merged.rows = (input.flatMap Table.rows).map (Row.pick merged.columns) ++
              (pulled.flatMap Table.rows).map (Row.pick merged.columns) ∧
            shown.Subperm merged.rows ∧ service.Arranged shown ∧
            ∃ kept uncut, service.Selects merged.rows kept uncut shown := by
  refine ⟨_, rfl, fun pulled merged finite stacked => ?_⟩
  have finite := finite_of_stack finite stacked
  refine ⟨ofRows_arrange stacked, ?_, ?_, service.arrange_subperm _, service.arranged_arrange finite,
    service.selects_arrange finite⟩
  · rw [assemble_of_stack stacked]
  · have whole := Table.stack_eq_pick stacked
    subst whole
    rw [← List.map_append, ← List.flatMap_append]

theorem hot_items_shown :
    let service : Service := ⟨"merged", ["hot"], [⟨"item", .str⟩], some "item", some "score", true, some 2⟩
    let columns : List Column := [⟨"item", .str⟩, ⟨"score", .double⟩]
    let recalled : Table := ⟨"recall", columns, [[("item", .string "a"), ("score", .number (.double 0.2))]]⟩
    let hot : Table := ⟨"hot", columns,
      [[("item", .string "b"), ("score", .number (.double 0.9))],
        [("item", .string "a"), ("score", .number (.double 0.7))], [("item", .null), ("score", .null)]]⟩
    (∀ table ∈ [recalled] ++ [hot], ∀ row ∈ table.rows, row.Finite) ∧
      ∃ next, (Task.service service).plan .empty [recalled] = .pull ["hot"] next ∧
        next [hot] = .succeed [⟨"merged", [⟨"item", .str⟩], [[("item", .string "b")], [("item", .string "a")]]⟩] := by
  intro service columns recalled hot
  have finite : ∀ table ∈ [recalled] ++ [hot], ∀ row ∈ table.rows, row.Finite := by
    simp only [List.cons_append, List.nil_append, List.forall_mem_cons]
    exact ⟨by decide, by decide, List.forall_mem_nil _⟩
  obtain ⟨next, planned, selects⟩ := plan_selects service .empty [recalled]
  obtain ⟨-, shown, -⟩ := selects [hot] _ finite rfl
  let first : Row := [("item", .string "a"), ("score", .number (.double 0.2))]
  let second : Row := [("item", .string "b"), ("score", .number (.double 0.9))]
  let third : Row := [("item", .null), ("score", .null)]
  have ordered : Row.orderBy "score" .descending [first, second, third] = [second, first, third] := by
    have behind : Row.precedes "score" .descending first second = false := by rfl
    have ahead : Row.precedes "score" .descending first third = true := by rfl
    have ahead' : Row.precedes "score" .descending second third = true := by rfl
    simp [Row.orderBy, List.mergeSort, behind, ahead, ahead']
  refine ⟨finite, next, planned, shown.trans ?_⟩
  change Plan.ofTable (Except.mapError _ (Table.restrict _ _
    ⟨_, _, (Row.orderBy "score" .descending [first, second, third]).take 2⟩)) = _
  rw [ordered]
  rfl

theorem evaluate_plan {answers : Answers} {perform : Errand → Outcome} {request : Request}
    (alone : service.pulls = []) :
    ((Task.service service).plan request input).evaluate answers perform =
      (service.assemble input).map ([·]) := by
  rw [Task.plan, Plan.pull, alone, List.map_nil, Plan.evaluate, Plan.inTurn]
  dsimp only
  rw [List.append_nil]
  cases service.assemble input <;> rfl

theorem restrict_arranged {shown : Table} (conforming : shown.Conforming)
    (once : unionColumns [shown.columns] = shown.columns) (arranged : service.Arranged shown.rows)
    (restricted : Table.restrict service.name service.columns shown = .ok made) :
    made.Conforming ∧ service.Arranged made.rows ∧
      Table.restrict service.name service.columns ⟨service.name, unionColumns [made.columns], made.rows⟩ = .ok made := by
  rw [Table.restrict] at restricted ⊢
  by_cases all : service.columns.isEmpty = true
  · rw [if_pos all] at restricted ⊢
    cases restricted
    refine ⟨conforming, arranged, ?_⟩
    simp only [Table.rename, once]
  · rw [if_neg all] at restricted ⊢
    obtain ⟨named, declared, conforming⟩ := Table.ofRows_made restricted
    have retaken := (Table.ofRows_fixed restricted).retaken
    rw [named, declared] at retaken
    refine ⟨conforming, ?_, retaken⟩
    rw [Table.ofRows_eq_pick restricted]
    exact arranged.pick service.columns

theorem assemble_assembled (finite : ∀ table ∈ tables, ∀ row ∈ table.rows, row.Finite)
    (assembled : service.assemble tables = .ok made) : service.assemble [made] = .ok made := by
  obtain ⟨merged, merging, -⟩ := bind_ok_iff.mp assembled
  have stacked := mapError_ok_iff.mp merging
  rw [assemble_of_stack stacked, mapError_ok_iff] at assembled
  have conforming := (Table.ofRows_made (ofRows_arrange stacked)).2.2
  have once : unionColumns [merged.columns] = merged.columns := by
    rw [(Table.ofRows_made stacked).2.1, Table.unionColumns_of_union]
  obtain ⟨conforming, arranged, again⟩ := restrict_arranged conforming once
    (service.arranged_arrange (finite_of_stack finite stacked)) assembled
  rw [assemble_of_stack (Table.stack_singleton conforming), arranged.arrange, again]
  rfl

/-- A service that pulls nothing leaves what it has made as it is. -/
theorem plan_idempotent {answers answers' : Answers} {perform perform' : Errand → Outcome}
    {request request' : Request} (alone : service.pulls = [])
    (finite : ∀ table ∈ input, ∀ row ∈ table.rows, row.Finite)
    (made : ((Task.service service).plan request input).evaluate answers perform = .ok [table]) :
    ((Task.service service).plan request' [table]).evaluate answers' perform' = .ok [table] := by
  rw [evaluate_plan alone] at made ⊢
  cases assembled : service.assemble input with
  | error failure => rw [assembled] at made; cases made
  | ok own =>
      rw [assembled] at made
      cases made
      rw [assemble_assembled finite assembled]
      rfl

theorem top_items_kept :
    let service : Service := ⟨"top", [], [⟨"item", .str⟩], some "item", some "score", true, some 2⟩
    let given : Table := ⟨"recall", [⟨"item", .str⟩, ⟨"score", .double⟩],
      [[("item", .string "a"), ("score", .number (.double 0.2))], [("item", .string "b"), ("score", .number (.double 0.9))]]⟩
    let top : Table := ⟨"top", [⟨"item", .str⟩], [[("item", .string "b")], [("item", .string "a")]]⟩
    let answers : Answers := fun
      | .rows _ _ _ => .ok []
      | .scores _ _ _ _ => .ok []
    let perform : Errand → Outcome := fun errand => .error (.taskNotFound errand.task)
    (∀ row ∈ given.rows, row.Finite) ∧
      ((Task.service service).plan .empty [given]).evaluate answers perform = .ok [top] ∧
        ((Task.service service).plan .empty [top]).evaluate answers perform = .ok [top] := by
  intro service given top answers perform
  have finite : ∀ table ∈ [given], ∀ row ∈ table.rows, row.Finite := by
    simp only [List.forall_mem_cons]
    exact ⟨by decide, List.forall_mem_nil _⟩
  let first : Row := [("item", .string "a"), ("score", .number (.double 0.2))]
  let second : Row := [("item", .string "b"), ("score", .number (.double 0.9))]
  have ordered : Row.orderBy "score" .descending [first, second] = [second, first] := by
    have behind : Row.precedes "score" .descending first second = false := by rfl
    simp [Row.orderBy, List.mergeSort, behind]
  have made : ((Task.service service).plan .empty [given]).evaluate answers perform = .ok [top] := by
    have stacked : Table.stack "top" [given] = .ok { given with name := "top" } := rfl
    rw [evaluate_plan rfl, assemble_of_stack stacked]
    change Except.map _ (Except.mapError _ (Table.restrict _ _
      ⟨_, _, (Row.orderBy "score" .descending [first, second]).take 2⟩)) = _
    rw [ordered]
    rfl
  exact ⟨finite given List.mem_cons_self, made, plan_idempotent rfl finite made⟩

end Tables

end Service

end Curator
