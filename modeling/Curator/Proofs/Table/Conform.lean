import Curator.Derive
import Curator.Proofs.Table
import Curator.Table.Merge
import Mathlib.Data.List.Nodup
/-!
What rows look like once a schema has taken them: they have the declared columns, each where it is
first declared, with values that all declarations of the column admit. All ways to make a table from
others end with rows that are taken by the schema of the result.
-/

set_option autoImplicit false

namespace Curator

namespace Row

theorem names_insert (name : String) (value : Json) (row : Row) :
    (insert name value row).names = if name ∈ row.names then row.names else row.names ++ [name] := by
  induction row with
  | nil => simp [insert, names]
  | cons member rest ih =>
      rcases member with ⟨other, old⟩
      by_cases same : other = name
      · simp [insert, names, same]
      · rw [insert, if_neg same]
        simp only [names, List.map_cons, List.mem_cons] at ih ⊢
        by_cases known : name ∈ rest.map Prod.fst
        · simp [ih, known]
        · simp [ih, known, Ne.symm same]

theorem nodup_added {names : List String} (distinct : names.Nodup) (name : String) :
    (if name ∈ names then names else names ++ [name]).Nodup := by
  by_cases known : name ∈ names
  · rwa [if_pos known]
  · rw [if_neg known, ← List.concat_eq_append]
    exact distinct.concat known

theorem eraseDups_of_nodup {names : List String} (distinct : names.Nodup) : names.eraseDups = names := by
  induction names with
  | nil => rfl
  | cons head tail ih =>
      obtain ⟨fresh, others⟩ := List.nodup_cons.mp distinct
      have kept : tail.filter (fun name => !name == head) = tail := by
        refine List.filter_eq_self.mpr fun name member => ?_
        have apart : name ≠ head := fun same => fresh (same ▸ member)
        simpa using apart
      rw [List.eraseDups_cons, kept, ih others]

structure Conforms (columns : List Column) (row : Row) : Prop where
  names : row.names = (columns.map Column.name).eraseDups
  typed : ∀ column ∈ columns, ∃ value, row.value? column.name = some value ∧ column.type.accepts value = true

theorem Conforms.fits {columns : List Column} {row : Row} (conforms : row.Conforms columns) : row.Fits columns := by
  intro name column found
  have named : column.name = name := by simpa using List.find?_some found
  obtain ⟨value, held, accepted⟩ := conforms.typed column (List.mem_of_find?_eq_some found)
  rw [← named, held]
  exact accepted

section Conform

variable {table : String} {index : Nat} {columns : List Column} {source target row : Row}

theorem names_conform (distinct : target.names.Nodup)
    (taken : conform table index columns source target = .ok row) :
    row.names = (target.names ++ columns.map Column.name).eraseDups := by
  induction columns generalizing source target with
  | nil =>
      cases taken
      rw [List.map_nil, List.append_nil, eraseDups_of_nodup distinct]
  | cons column rest ih =>
      rw [conform] at taken
      split at taken
      · have here := names_insert column.name ((source.value? column.name).getD .null) target
        by_cases known : column.name ∈ target.names
        · rw [if_pos known] at here
          rw [ih (here ▸ distinct) taken, here, List.eraseDups_append, List.eraseDups_append]
          simp [List.removeAll, known]
        · rw [if_neg known] at here
          have apart : (target.names ++ [column.name]).Nodup :=
            List.concat_eq_append ▸ distinct.concat known
          rw [ih (here ▸ apart) taken, here, List.append_assoc, List.singleton_append, List.map_cons]
      · cases taken

theorem value?_conform_of_undeclared {name : String} (undeclared : name ∉ columns.map Column.name)
    (taken : conform table index columns source target = .ok row) : row.value? name = target.value? name := by
  induction columns generalizing source target with
  | nil =>
      cases taken
      rfl
  | cons column rest ih =>
      rw [conform] at taken
      simp only [List.map_cons, List.mem_cons, not_or] at undeclared
      split at taken
      · rw [ih undeclared.2 taken, value?_insert_of_ne _ _ undeclared.1]
      · cases taken

theorem value?_conform_of_vacated {name : String} (declared : name ∈ columns.map Column.name)
    (vacated : (source.value? name).getD .null = .null)
    (taken : conform table index columns source target = .ok row) : row.value? name = some .null := by
  induction columns generalizing source target with
  | nil => cases declared
  | cons column rest ih =>
      rw [conform] at taken
      split at taken
      · by_cases same : name = column.name
        · by_cases again : name ∈ rest.map Column.name
          · exact ih again (same ▸ value?_vacate_self name source) taken
          · rw [value?_conform_of_undeclared again taken, ← same, value?_insert_self, vacated]
        · have later : name ∈ rest.map Column.name := (List.mem_cons.mp declared).resolve_left same
          exact ih later (by rw [value?_vacate_of_ne source same]; exact vacated) taken
      · cases taken

theorem typed_conform (taken : conform table index columns source target = .ok row) :
    ∀ column ∈ columns, ∃ value, row.value? column.name = some value ∧ column.type.accepts value = true := by
  induction columns generalizing source target with
  | nil => simp
  | cons first rest ih =>
      rw [conform] at taken
      split at taken
      · rename_i accepted
        refine List.forall_mem_cons.mpr ⟨?_, ih taken⟩
        by_cases again : first.name ∈ rest.map Column.name
        · exact ⟨.null, value?_conform_of_vacated again (value?_vacate_self _ _) taken, first.type.accepts_null⟩
        · exact ⟨_, by rw [value?_conform_of_undeclared again taken, value?_insert_self], accepted⟩
      · cases taken

theorem conforms_of_conform (taken : conform table index columns source [] = .ok row) : row.Conforms columns := by
  have distinct : (names []).Nodup := List.nodup_nil
  exact ⟨names_conform distinct taken, typed_conform taken⟩

end Conform

end Row

namespace Table

def Conforming (table : Table) : Prop := ∀ row ∈ table.rows, row.Conforms table.columns

variable {name : String} {columns : List Column} {table made : Table}

theorem conforms_of_conformAll {index : Nat} {rows conformed : List Row}
    (taken : conformAll name columns index rows = .ok conformed) : ∀ row ∈ conformed, row.Conforms columns := by
  induction rows generalizing index conformed with
  | nil =>
      cases taken
      simp
  | cons row rest ih =>
      obtain ⟨first, here, later⟩ := bind_ok_iff.mp taken
      obtain ⟨others, behind, same⟩ := bind_ok_iff.mp later
      cases pure_ok_iff.mp same
      exact List.forall_mem_cons.mpr ⟨Row.conforms_of_conform here, ih behind⟩

theorem ofRows_made {rows : List Row} (taken : ofRows name columns rows = .ok made) :
    made.name = name ∧ made.columns = columns ∧ made.Conforming := by
  obtain ⟨conformed, passed, same⟩ := bind_ok_iff.mp taken
  cases pure_ok_iff.mp same
  exact ⟨rfl, rfl, conforms_of_conformAll passed⟩

theorem conforming_of_taken (taken : ofRows table.name table.columns table.rows = .ok table) : table.Conforming :=
  (ofRows_made taken).2.2

theorem ofRecords_made {records : List Json} (taken : ofRecords name columns records = .ok made) :
    made.name = name ∧ made.columns = columns ∧ made.Conforming := by
  obtain ⟨rows, -, passed⟩ := bind_ok_iff.mp taken
  exact ofRows_made passed

theorem empty_conforming (name : String) (columns : List Column) : (empty name columns).Conforming :=
  fun _ member => nomatch member

theorem merge_made {column : Option String} {tables : List Table} (merged : merge name column tables = .ok made) :
    made.name = name ∧ made.Conforming := by
  cases column with
  | none =>
      obtain ⟨named, -, conforming⟩ := ofRows_made merged
      exact ⟨named, conforming⟩
  | some column =>
      cases tables with
      | nil =>
          cases merged
          exact ⟨rfl, empty_conforming name []⟩
      | cons base others =>
          obtain ⟨named, -, conforming⟩ := ofRows_made merged
          exact ⟨named, conforming⟩

theorem restrict_made (conforming : table.Conforming) (restricted : restrict name columns table = .ok made) :
    made.name = name ∧ (columns ≠ [] → made.columns = columns) ∧ made.Conforming := by
  cases columns with
  | nil =>
      cases restricted
      exact ⟨rfl, fun absent => absurd rfl absent, conforming⟩
  | cons first rest =>
      obtain ⟨named, declared, conforms⟩ := ofRows_made restricted
      exact ⟨named, fun _ => declared, conforms⟩

theorem derive_made {actions : List Action} (conforming : table.Conforming)
    (derived : derive name actions table = .ok made) : made.Conforming := by
  rw [derive] at derived
  split at derived
  · cases derived
    exact conforming
  · dsimp only at derived
    split at derived
    · cases derived
    · obtain ⟨-, -, conforms⟩ := ofRows_made (mapError_ok_iff.mp derived)
      exact conforms

end Table

end Curator
