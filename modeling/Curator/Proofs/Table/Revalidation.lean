import Curator.Proofs.Attempts
import Curator.Proofs.Table.Conform
/-!
What a schema does to rows a second time: nothing. The rows of every table that operations on tables
come to are taken by the table's own columns as they are. Rows are refused for their first cell that
the first declaration of its name does not admit.
-/

set_option autoImplicit false

namespace Curator

namespace Row

/-- The column is the first one of its name, and its type does not admit what the row holds under the
name; a value that is missing is `null`. -/
def Rejects (columns : List Column) (row : Row) (column : Column) : Prop :=
  columns.find? (·.name = column.name) = some column ∧
    column.type.accepts ((row.value? column.name).getD .null) = false

theorem fits_iff_not_rejects {columns : List Column} {row : Row} :
    row.Fits columns ↔ ∀ column, ¬ row.Rejects columns column := by
  constructor
  · intro fits column rejects
    have accepted := fits column.name column rejects.1
    simp [rejects.2] at accepted
  · intro passes name column found
    have named : column.name = name := by simpa using List.find?_some found
    subst named
    by_contra refused
    exact passes column ⟨found, by simpa using refused⟩

theorem ne_of_rejects_vacated {columns : List Column} {row : Row} {name : String} {column : Column}
    (rejects : (row.vacate name).Rejects columns column) : column.name ≠ name := by
  intro same
  have refused := rejects.2
  rw [same, value?_vacate_self, ColumnType.accepts_null] at refused
  cases refused

theorem rejects_cons_iff {first column : Column} {rest : List Column} {row : Row} :
    row.Rejects (first :: rest) column ↔
      (column = first ∧ first.type.accepts ((row.value? first.name).getD .null) = false) ∨
        (row.vacate first.name).Rejects rest column := by
  constructor
  · intro rejects
    by_cases same : first.name = column.name
    · have here : first = column := by simpa [Rejects, same] using rejects.1
      subst here
      exact .inl ⟨rfl, rejects.2⟩
    · refine .inr ⟨by simpa [List.find?_cons, same] using rejects.1, ?_⟩
      rw [value?_vacate_of_ne row (Ne.symm same)]
      exact rejects.2
  · intro either
    rcases either with ⟨here, refused⟩ | behind
    · subst here
      exact ⟨by simp, refused⟩
    · have apart := ne_of_rejects_vacated behind
      refine ⟨by simpa [List.find?_cons, Ne.symm apart] using behind.1, ?_⟩
      rw [← value?_vacate_of_ne row apart]
      exact behind.2

section Conform

variable {table : String} {index : Nat} {columns : List Column} {source target row : Row}

theorem conform_error_iff {error : SchemaError} :
    conform table index columns source target = .error error ↔
      ∃ ahead column behind, columns = ahead ++ column :: behind ∧ source.Rejects columns column ∧
        (∀ earlier ∈ ahead, ¬ source.Rejects columns earlier) ∧
        error = .typeMismatch table index column.name column.type
          ((source.value? column.name).getD .null).describe := by
  induction columns generalizing source target with
  | nil => simp [conform]
  | cons first rest ih =>
      rw [conform]
      by_cases accepted : first.type.accepts ((source.value? first.name).getD .null) = true
      · rw [if_pos accepted, ih]
        have later {column : Column} :
            source.Rejects (first :: rest) column ↔ (source.vacate first.name).Rejects rest column := by
          simp [rejects_cons_iff, accepted]
        constructor
        · intro found
          obtain ⟨ahead, column, behind, rfl, rejects, passes, rfl⟩ := found
          have apart := ne_of_rejects_vacated rejects
          refine ⟨first :: ahead, column, behind, rfl, later.mpr rejects, ?_, ?_⟩
          · intro earlier member refused
            have vacated := later.mp refused
            rcases List.mem_cons.mp member with here | inner
            · exact ne_of_rejects_vacated vacated (congrArg Column.name here)
            · exact passes earlier inner vacated
          · rw [value?_vacate_of_ne source apart]
        · intro found
          obtain ⟨ahead, column, behind, split, rejects, passes, rfl⟩ := found
          have vacated := later.mp rejects
          have apart := ne_of_rejects_vacated vacated
          cases ahead with
          | nil =>
              cases split
              exact absurd rfl apart
          | cons head ahead =>
              cases split
              refine ⟨ahead, column, behind, rfl, vacated, ?_, ?_⟩
              · intro earlier member refused
                exact passes earlier (List.mem_cons_of_mem _ member) (later.mpr refused)
              · rw [value?_vacate_of_ne source apart]
      · have refused : first.type.accepts ((source.value? first.name).getD .null) = false := by
          simpa using accepted
        have rejects : source.Rejects (first :: rest) first := rejects_cons_iff.mpr (.inl ⟨rfl, refused⟩)
        rw [if_neg accepted]
        constructor
        · intro failed
          cases failed
          exact ⟨[], first, rest, rfl, rejects, by simp, rfl⟩
        · intro found
          obtain ⟨ahead, column, behind, split, -, passes, rfl⟩ := found
          cases ahead with
          | nil =>
              cases split
              rfl
          | cons head ahead =>
              cases split
              exact absurd rejects (passes first List.mem_cons_self)

theorem nodup_conform (distinct : target.names.Nodup)
    (taken : conform table index columns source target = .ok row) : row.names.Nodup := by
  induction columns generalizing source target with
  | nil =>
      cases taken
      exact distinct
  | cons column rest ih =>
      rw [conform] at taken
      split at taken
      · refine ih ?_ taken
        rw [names_insert]
        exact nodup_added distinct column.name
      · cases taken

theorem value?_conform {name : String} (declared : name ∈ columns.map Column.name)
    (taken : conform table index columns source target = .ok row) :
    row.value? name =
      some (if (columns.map Column.name).count name = 1 then (source.value? name).getD .null else .null) := by
  induction columns generalizing source target with
  | nil => cases declared
  | cons column rest ih =>
      rw [conform] at taken
      split at taken
      · by_cases again : name ∈ rest.map Column.name
        · by_cases same : name = column.name
          · have repeated : ((column :: rest).map Column.name).count name ≠ 1 := by
              have behind := List.count_pos_iff.mpr again
              simp only [List.map_cons, ← same, List.count_cons_self]
              omega
            rw [if_neg repeated]
            exact value?_conform_of_vacated again (same ▸ value?_vacate_self name source) taken
          · rw [ih again taken, value?_vacate_of_ne source same, List.map_cons,
              List.count_cons_of_ne (Ne.symm same)]
        · have same : name = column.name := (List.mem_cons.mp declared).resolve_right again
          have once : ((column :: rest).map Column.name).count name = 1 := by
            rw [List.map_cons, ← same, List.count_cons_self, List.count_eq_zero.mpr again]
          rw [value?_conform_of_undeclared again taken, if_pos once, same, value?_insert_self]
      · cases taken

end Conform

theorem eq_of_names_of_value? {row other : Row} (names : row.names = other.names) (distinct : row.names.Nodup)
    (values : ∀ name ∈ row.names, row.value? name = other.value? name) : row = other := by
  induction row generalizing other with
  | nil => cases other with
    | nil => rfl
    | cons member rest => cases names
  | cons member rest ih => cases other with
    | nil => cases names
    | cons member' rest' =>
        rcases member with ⟨name, value⟩
        rcases member' with ⟨name', value'⟩
        simp only [Row.names, List.map_cons, List.cons.injEq] at names
        obtain ⟨rfl, behind⟩ := names
        obtain ⟨fresh, others⟩ := List.nodup_cons.mp distinct
        have here : value = value' := by simpa [value?] using values name List.mem_cons_self
        have later : rest = rest' := by
          refine ih behind others fun target member => ?_
          have apart : (target == name) = false := by
            have different : target ≠ name := fun same => fresh (same ▸ member)
            simpa using different
          simpa [value?, List.lookup_cons, apart] using values target (List.mem_cons_of_mem _ member)
        rw [here, later]

def Fixed (columns : List Column) (row : Row) : Prop :=
  ∀ table index, conform table index columns row [] = .ok row

theorem fixed_of_conform {table : String} {index : Nat} {columns : List Column} {source row : Row}
    (taken : conform table index columns source [] = .ok row) : row.Fixed columns := by
  intro table' index'
  have conforms := conforms_of_conform taken
  obtain ⟨again, retaken⟩ : ∃ again, conform table' index' columns row [] = .ok again :=
    conform_ok_iff.mpr conforms.fits
  have names : again.names = row.names := (conforms_of_conform retaken).names.trans conforms.names.symm
  have distinct : (Row.names []).Nodup := List.nodup_nil
  have same : again = row := by
    refine eq_of_names_of_value? names (nodup_conform distinct retaken) fun name member => ?_
    have declared : name ∈ columns.map Column.name := by
      rw [names, conforms.names] at member
      exact List.mem_eraseDups.mp member
    rw [value?_conform declared retaken, value?_conform declared taken]
    by_cases once : (columns.map Column.name).count name = 1
    · simp only [if_pos once, Option.getD_some]
    · simp only [if_neg once]
  rw [retaken, same]

end Row

namespace Table

def Fixed (table : Table) : Prop := ∀ row ∈ table.rows, row.Fixed table.columns

section Rows

variable {name : String} {columns : List Column} {rows : List Row} {made : Table}

theorem conformAll_of_fixed (fixed : ∀ row ∈ rows, row.Fixed columns) (index : Nat) :
    conformAll name columns index rows = .ok rows := by
  induction rows generalizing index with
  | nil => rfl
  | cons row rest ih =>
      have here := fixed row List.mem_cons_self name index
      have behind := ih (fun other member => fixed other (List.mem_cons_of_mem _ member)) (index + 1)
      exact bind_ok_iff.mpr ⟨row, here, bind_ok_iff.mpr ⟨rest, behind, rfl⟩⟩

theorem Fixed.retaken {table : Table} (fixed : table.Fixed) :
    ofRows table.name table.columns table.rows = .ok table :=
  bind_ok_iff.mpr ⟨table.rows, conformAll_of_fixed fixed 0, rfl⟩

theorem fixed_of_conformAll {index : Nat} {conformed : List Row}
    (taken : conformAll name columns index rows = .ok conformed) : ∀ row ∈ conformed, row.Fixed columns := by
  induction rows generalizing index conformed with
  | nil =>
      cases taken
      simp
  | cons row rest ih =>
      obtain ⟨first, here, later⟩ := bind_ok_iff.mp taken
      obtain ⟨others, behind, same⟩ := bind_ok_iff.mp later
      cases pure_ok_iff.mp same
      exact List.forall_mem_cons.mpr ⟨Row.fixed_of_conform here, ih behind⟩

theorem ofRows_fixed (taken : ofRows name columns rows = .ok made) : made.Fixed := by
  obtain ⟨conformed, passed, same⟩ := bind_ok_iff.mp taken
  cases pure_ok_iff.mp same
  exact fixed_of_conformAll passed

theorem conformAll_error_iff {index : Nat} {error : SchemaError} :
    conformAll name columns index rows = .error error ↔
      ∃ before row after, rows = before ++ row :: after ∧ (∀ earlier ∈ before, earlier.Fits columns) ∧
        Row.conform name (index + before.length) columns row [] = .error error := by
  induction rows generalizing index with
  | nil => simp [conformAll]
  | cons first rest ih =>
      rw [conformAll, bind_error_iff]
      constructor
      · intro failed
        rcases failed with here | ⟨taken, passed, later⟩
        · exact ⟨[], first, rest, rfl, by simp, here⟩
        · rcases bind_error_iff.mp later with behind | ⟨others, -, impossible⟩
          · obtain ⟨before, row, after, rfl, fit, refused⟩ := ih.mp behind
            refine ⟨first :: before, row, after, rfl, ?_, ?_⟩
            · exact List.forall_mem_cons.mpr ⟨Row.conform_ok_iff.mp ⟨taken, passed⟩, fit⟩
            · rwa [List.length_cons, Nat.add_comm before.length 1, ← Nat.add_assoc]
          · cases impossible
      · intro found
        obtain ⟨before, row, after, split, fit, refused⟩ := found
        cases before with
        | nil =>
            cases split
            exact .inl refused
        | cons head before =>
            cases split
            obtain ⟨fits, others⟩ := List.forall_mem_cons.mp fit
            obtain ⟨taken, passed⟩ : ∃ taken, Row.conform name index columns _ [] = .ok taken :=
              Row.conform_ok_iff.mpr fits
            refine .inr ⟨taken, passed, bind_error_iff.mpr (.inl (ih.mpr ⟨before, row, after, rfl, others, ?_⟩))⟩
            rwa [List.length_cons, Nat.add_comm before.length 1, ← Nat.add_assoc] at refused

theorem ofRows_error_iff {error : SchemaError} :
    ofRows name columns rows = .error error ↔
      ∃ before row after ahead column behind, rows = before ++ row :: after ∧
        columns = ahead ++ column :: behind ∧ row.Rejects columns column ∧
        (∀ earlier ∈ before, ∀ any, ¬ earlier.Rejects columns any) ∧
        (∀ earlier ∈ ahead, ¬ row.Rejects columns earlier) ∧
        error = .typeMismatch name before.length column.name column.type
          ((row.value? column.name).getD .null).describe := by
  have listed : ofRows name columns rows = .error error ↔ conformAll name columns 0 rows = .error error := by
    rw [ofRows, bind_error_iff]
    simp [pure, Except.pure]
  rw [listed, conformAll_error_iff]
  simp only [Row.conform_error_iff, Row.fits_iff_not_rejects, Nat.zero_add]
  constructor
  · intro found
    obtain ⟨before, row, after, rows, fit, ahead, column, behind, columns, rejects, passes, same⟩ := found
    exact ⟨before, row, after, ahead, column, behind, rows, columns, rejects, fit, passes, same⟩
  · intro found
    obtain ⟨before, row, after, ahead, column, behind, rows, columns, rejects, fit, passes, same⟩ := found
    exact ⟨before, row, after, rows, fit, ahead, column, behind, columns, rejects, passes, same⟩

theorem ofRows_fails_iff :
    (∃ error, ofRows name columns rows = .error error) ↔ ∃ row ∈ rows, ∃ column, row.Rejects columns column := by
  have taken : (∃ table, ofRows name columns rows = .ok table) ↔
      ∀ row ∈ rows, ∀ column, ¬ row.Rejects columns column := by
    simp only [ofRows_ok_iff, Row.fits_iff_not_rejects]
  have either : (∃ error, ofRows name columns rows = .error error) ↔
      ¬ ∃ table, ofRows name columns rows = .ok table := by
    cases ofRows name columns rows <;> simp
  rw [either, taken]
  push Not
  rfl

end Rows

end Table

end Curator
