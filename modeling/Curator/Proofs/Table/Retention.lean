import Curator.Proofs.Graph.WellFormed
import Curator.Proofs.Table.Revalidation
/-!
What a table keeps of the rows that it is made from: all that they hold under names that the schema
declares once, and nothing under names that it declares more than once.
-/

set_option autoImplicit false

namespace Curator.Table

variable {name : String} {columns : List Column} {made : Table}

def kept (columns : List Column) (given : Row) (name : String) : Json :=
  if (columns.map Column.name).count name = 1 then (given.value? name).getD .null else .null

theorem conformAll_keeps {index : Nat} {rows conformed : List Row}
    (taken : conformAll name columns index rows = .ok conformed) :
    List.Forall₂ (fun given row => ∀ column ∈ columns,
      row.value? column.name = some (kept columns given column.name)) rows conformed := by
  induction rows generalizing index conformed with
  | nil =>
      cases taken
      exact .nil
  | cons given rest ih =>
      obtain ⟨row, here, later⟩ := bind_ok_iff.mp taken
      obtain ⟨others, behind, same⟩ := bind_ok_iff.mp later
      cases pure_ok_iff.mp same
      exact .cons (fun column member => Row.value?_conform (List.mem_map_of_mem member) here) (ih behind)

/-- A table has as many rows as it is made from, and each of them has under every declared name what
the given row had there, or `null` when it had nothing, provided that the name is declared once. What
rows have under a name that is declared again is lost, unless it is `null`. -/
theorem ofRows_keeps {rows : List Row} (taken : ofRows name columns rows = .ok made) :
    made.rows.length = rows.length ∧
      ∀ (index : Nat) (given row : Row), rows[index]? = some given → made.rows[index]? = some row →
        ∀ column ∈ columns,
          ((columns.map Column.name).count column.name = 1 →
            row.value? column.name = some ((given.value? column.name).getD .null)) ∧
          ((columns.map Column.name).count column.name ≠ 1 → row.value? column.name = some .null) := by
  obtain ⟨conformed, passed, same⟩ := bind_ok_iff.mp taken
  cases pure_ok_iff.mp same
  have keeps := conformAll_keeps passed
  refine ⟨keeps.length_eq.symm, ?_⟩
  intro index given row here there column member
  obtain ⟨inside, rfl⟩ := List.getElem?_eq_some_iff.mp here
  obtain ⟨inside', rfl⟩ := List.getElem?_eq_some_iff.mp there
  have value := keeps.get inside inside' column member
  simp only [List.get_eq_getElem, kept] at value
  constructor
  · intro once
    rw [value, if_pos once]
  · intro again
    rw [value, if_neg again]

theorem scored_rows_kept :
    let columns : List Column := [⟨"item", .str⟩, ⟨"score", .double⟩]
    let given : Row := [("score", .number (.double 0.5)), ("item", .string "a"), ("extra", .bool true)]
    ∃ made row, ofRows "recall" columns [given, [("item", .string "b")]] = .ok made ∧
      made.rows[0]? = some row ∧ row.value? "score" = some (.number (.double 0.5)) := by
  intro columns given
  have taken : ofRows "recall" columns [given, [("item", .string "b")]] = .ok ⟨"recall", columns,
      [[("item", .string "a"), ("score", .number (.double 0.5))], [("item", .string "b"), ("score", .null)]]⟩ := rfl
  obtain ⟨-, keeps⟩ := ofRows_keeps taken
  refine ⟨_, _, taken, rfl, ?_⟩
  exact (keeps 0 given _ rfl rfl ⟨"score", .double⟩ (by decide)).1 (by decide)

theorem repeated_column_loses :
    ¬ ∀ (source : Source) (rows : List Row) (made : Table), source.rows = some rows → source.fault? = none →
      ofRows source.name source.columns rows = .ok made →
        ∀ (index : Nat) (given row : Row), rows[index]? = some given → made.rows[index]? = some row →
          ∀ column ∈ source.columns, row.value? column.name = some ((given.value? column.name).getD .null) := by
  intro keeps
  have lost := keeps
    ⟨"items", [⟨"x", .int32⟩, ⟨"x", .int32⟩], some [[("x", .number (.int 1))]], none⟩ _ _ rfl rfl rfl
    0 _ _ rfl rfl ⟨"x", .int32⟩ List.mem_cons_self
  cases lost

end Curator.Table
