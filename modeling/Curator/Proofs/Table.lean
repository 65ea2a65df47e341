import Curator.Proofs.Attempts
import Curator.Table
/-!
Which rows a schema takes: those in which every declared column has a value of its type. Where a name
is declared more than once, only the first declaration sees the value, and the others see `null`.
-/

set_option autoImplicit false

namespace Curator

theorem ColumnType.accepts_null (type : ColumnType) : type.accepts .null = true := by
  cases type <;> rfl

namespace Row

theorem value?_vacate_self (name : String) (row : Row) :
    ((vacate name row).value? name).getD .null = .null := by
  induction row with
  | nil => rfl
  | cons member rest ih =>
      rcases member with ⟨other, old⟩
      by_cases same : other = name
      · simp [vacate, value?, same]
      · have apart : (name == other) = false := by simpa using Ne.symm same
        simpa [vacate, value?, List.lookup_cons, same, apart] using ih

theorem value?_vacate_of_ne {name target : String} (row : Row) (different : target ≠ name) :
    (vacate name row).value? target = row.value? target := by
  induction row with
  | nil => rfl
  | cons member rest ih =>
      rcases member with ⟨other, old⟩
      by_cases same : other = name
      · subst same
        have apart : (target == other) = false := by simpa using different
        simp [vacate, value?, List.lookup_cons, apart]
      · by_cases here : target = other
        · simp [vacate, value?, same, here]
        · have apart : (target == other) = false := by simpa using here
          simpa [vacate, value?, List.lookup_cons, same, apart] using ih

def Fits (columns : List Column) (row : Row) : Prop :=
  ∀ name column, columns.find? (·.name = name) = some column →
    column.type.accepts ((row.value? name).getD .null) = true

theorem fits_cons_iff {column : Column} {rest : List Column} {row : Row} :
    row.Fits (column :: rest) ↔
      column.type.accepts ((row.value? column.name).getD .null) = true ∧
        (row.vacate column.name).Fits rest := by
  constructor
  · intro fits
    refine ⟨fits column.name column (by simp), ?_⟩
    intro name later found
    by_cases same : name = column.name
    · rw [same, value?_vacate_self]
      exact later.type.accepts_null
    · rw [value?_vacate_of_ne row same]
      exact fits name later (by simpa [List.find?_cons, Ne.symm same] using found)
  · rintro ⟨accepts, fits⟩ name declared found
    by_cases same : column.name = name
    · have first : column = declared := by simpa [same] using found
      exact first ▸ same ▸ accepts
    · rw [← value?_vacate_of_ne row (Ne.symm same)]
      exact fits name declared (by simpa [List.find?_cons, same] using found)

theorem conform_ok_iff {table : String} {index : Nat} {columns : List Column} {source target : Row} :
    (∃ row, conform table index columns source target = .ok row) ↔ source.Fits columns := by
  induction columns generalizing source target with
  | nil => simp [conform, Fits]
  | cons column rest ih =>
      rw [fits_cons_iff, conform]
      by_cases accepts : column.type.accepts ((source.value? column.name).getD .null) = true
      · simp only [accepts, if_true, true_and, ih]
      · simp [accepts]

end Row

namespace Table

variable {name : String} {columns : List Column} {rows : List Row}

theorem conformAll_ok_iff (index : Nat) :
    (∃ conformed, conformAll name columns index rows = .ok conformed) ↔ ∀ row ∈ rows, row.Fits columns := by
  induction rows generalizing index with
  | nil => simp [conformAll]
  | cons row rest ih =>
      have first : (∃ conformed, Row.conform name index columns row [] = .ok conformed) ↔ row.Fits columns :=
        Row.conform_ok_iff
      simp only [List.mem_cons, forall_eq_or_imp, ← first, ← ih (index + 1), conformAll]
      constructor
      · rintro ⟨conformed, passed⟩
        obtain ⟨here, fits, later⟩ := bind_ok_iff.mp passed
        obtain ⟨others, behind, -⟩ := bind_ok_iff.mp later
        exact ⟨⟨here, fits⟩, others, behind⟩
      · rintro ⟨⟨here, fits⟩, others, behind⟩
        exact ⟨here :: others, bind_ok_iff.mpr ⟨here, fits, bind_ok_iff.mpr ⟨others, behind, rfl⟩⟩⟩

theorem ofRows_ok_iff : (∃ table, ofRows name columns rows = .ok table) ↔ ∀ row ∈ rows, row.Fits columns := by
  have conformed : (∃ conformed, conformAll name columns 0 rows = .ok conformed) ↔
      ∀ row ∈ rows, row.Fits columns := conformAll_ok_iff 0
  rw [← conformed]
  constructor
  · rintro ⟨table, made⟩
    obtain ⟨conformed, passed, -⟩ := bind_ok_iff.mp made
    exact ⟨conformed, passed⟩
  · rintro ⟨conformed, passed⟩
    exact ⟨⟨name, columns, conformed⟩, bind_ok_iff.mpr ⟨conformed, passed, rfl⟩⟩

theorem objects_ok_iff {index : Nat} {records : List Json} :
    objects name index records = .ok rows ↔ records = rows.map .object := by
  induction records generalizing index rows with
  | nil => cases rows <;> simp [objects]
  | cons record rest ih =>
      cases record with
      | object row =>
          simp only [objects, bind_ok_iff, pure_ok_iff, ih]
          cases rows with
          | nil => simp
          | cons first others => simp [and_comm]
      | null | bool | number | string | array => cases rows <;> simp [objects]

theorem ofRecords_ok_iff {records : List Json} :
    (∃ table, ofRecords name columns records = .ok table) ↔
      ∀ record ∈ records, ∃ row : Row, record = .object row ∧ row.Fits columns := by
  constructor
  · rintro ⟨table, made⟩ record member
    obtain ⟨rows, listed, typed⟩ := bind_ok_iff.mp made
    rw [objects_ok_iff.mp listed] at member
    obtain ⟨row, inside, rfl⟩ := List.mem_map.mp member
    exact ⟨row, rfl, ofRows_ok_iff.mp ⟨table, typed⟩ row inside⟩
  · intro fit
    obtain ⟨rows, listed⟩ : ∃ rows : List Row, records = rows.map .object := by
      induction records with
      | nil => exact ⟨[], rfl⟩
      | cons record rest ih =>
          obtain ⟨row, rfl, -⟩ := fit record List.mem_cons_self
          obtain ⟨rows, rfl⟩ := ih fun other member => fit other (List.mem_cons_of_mem _ member)
          exact ⟨row :: rows, rfl⟩
    have fits (row : Row) (member : row ∈ rows) : row.Fits columns := by
      obtain ⟨own, same, fits⟩ := fit (.object row) (listed ▸ List.mem_map_of_mem member)
      cases same
      exact fits
    have typed : ∃ table, ofRows name columns rows = .ok table := ofRows_ok_iff.mpr fits
    obtain ⟨table, typed⟩ := typed
    exact ⟨table, bind_ok_iff.mpr ⟨rows, objects_ok_iff.mpr listed, typed⟩⟩

end Table

end Curator
