import Curator.Proofs.Column
import Curator.Proofs.Table.Revalidation
/-!
Wider column types. A type is wider than another when it admits all of its values, and a table whose columns are
given wider types keeps its rows as they are.
-/

set_option autoImplicit false

namespace Curator

namespace ColumnType

inductive Widens : ColumnType → ColumnType → Prop
  | refl (type : ColumnType) : Widens type type
  | trans {narrow middle wide : ColumnType} : Widens narrow middle → Widens middle wide → Widens narrow wide
  | int32 : Widens int32 int64
  | int64 : Widens int64 float
  | float : Widens float double
  | double : Widens double float
  | str : Widens str bytes
  | list {narrow wide : ColumnType} : Widens narrow wide → Widens (list narrow) (list wide)

variable {narrow wide : ColumnType}

theorem accepts_list_iff {element : ColumnType} {items : List Json} :
    (list element).accepts (.array items) = true ↔ ∀ item ∈ items, element.accepts item = true := by
  rw [accepts, List.all_eq_true]

theorem accepts_of_widens (widens : Widens narrow wide) {value : Json} (accepted : narrow.accepts value = true) :
    wide.accepts value = true := by
  induction widens generalizing value with
  | refl => exact accepted
  | trans _ _ ih ih' => exact ih' (ih accepted)
  | int32 =>
      cases value with
      | null => rfl
      | number number =>
          cases number with
          | int whole => exact accepts_int64_iff.mpr (Number.inInt64_of_inInt32 (accepts_int32_iff.mp accepted))
          | double => cases accepted
      | bool | string | array | object => cases accepted
  | int64 =>
      cases value with
      | null | number => rfl
      | bool | string | array | object => cases accepted
  | float | double =>
      cases value with
      | null | number => rfl
      | bool | string | array | object => cases accepted
  | str =>
      cases value with
      | null | string => rfl
      | bool | number | array | object => cases accepted
  | list _ ih =>
      cases value with
      | null => rfl
      | array items => exact accepts_list_iff.mpr fun item member => ih (accepts_list_iff.mp accepted item member)
      | bool | number | string | object => cases accepted

theorem widens_of_accepts (safe : ∀ value, narrow.accepts value = true → wide.accepts value = true) :
    Widens narrow wide := by
  induction narrow generalizing wide with
  | int32 =>
      have whole := safe (.number (.int 0)) rfl
      cases wide with
      | int32 => exact .refl _
      | int64 => exact .int32
      | float => exact .trans .int32 .int64
      | double => exact .trans .int32 (.trans .int64 .float)
      | str | bool | bytes | list => cases whole
  | int64 =>
      have whole := safe (.number (.int 4294967296)) rfl
      cases wide with
      | int64 => exact .refl _
      | float => exact .int64
      | double => exact .trans .int64 .float
      | int32 | str | bool | bytes | list => cases whole
  | float =>
      have half := safe (.number (.double 0.5)) rfl
      cases wide with
      | float => exact .refl _
      | double => exact .float
      | int32 | int64 | str | bool | bytes | list => cases half
  | double =>
      have half := safe (.number (.double 0.5)) rfl
      cases wide with
      | float => exact .double
      | double => exact .refl _
      | int32 | int64 | str | bool | bytes | list => cases half
  | str =>
      have text := safe (.string "") rfl
      cases wide with
      | str => exact .refl _
      | bytes => exact .str
      | int32 | int64 | float | double | bool | list => cases text
  | bool =>
      have truth := safe (.bool true) rfl
      cases wide with
      | bool => exact .refl _
      | int32 | int64 | float | double | str | bytes | list => cases truth
  | bytes =>
      have text := safe (.string "") rfl
      have byte := safe (.array [.number (.int 0)]) rfl
      cases wide with
      | bytes => exact .refl _
      | str => cases byte
      | int32 | int64 | float | double | bool | list => cases text
  | list element ih =>
      have nothing := safe (.array [.null]) (accepts_list_iff.mpr (by simp [accepts_null]))
      cases wide with
      | list element' =>
          refine .list (ih fun value accepted => ?_)
          have single : (list element).accepts (.array [value]) = true :=
            accepts_list_iff.mpr (List.forall_mem_singleton.mpr accepted)
          exact accepts_list_iff.mp (safe _ single) value (List.mem_singleton_self value)
      | int32 | int64 | float | double | str | bool | bytes => cases nothing

end ColumnType

def Widened : List Column → List Column → Prop :=
  List.Forall₂ fun column column' => column'.name = column.name ∧ column.type.Widens column'.type

namespace Row

theorem conform_of_widened {table table' : String} {index index' : Nat} {columns columns' : List Column}
    (widened : Widened columns columns') {source target row : Row}
    (taken : conform table index columns source target = .ok row) :
    conform table' index' columns' source target = .ok row := by
  induction widened generalizing source target with
  | nil =>
      cases taken
      rfl
  | @cons column column' _ _ wider _ ih =>
      obtain ⟨named, widens⟩ := wider
      rw [conform] at taken
      split at taken
      · rename_i accepted
        rw [conform, named, if_pos (ColumnType.accepts_of_widens widens accepted)]
        exact ih taken
      · cases taken

end Row

namespace Table

variable {name name' : String} {columns columns' : List Column} {rows : List Row} {table : Table}

theorem conformAll_of_widened (widened : Widened columns columns') {index index' : Nat} {conformed : List Row}
    (taken : conformAll name columns index rows = .ok conformed) :
    conformAll name' columns' index' rows = .ok conformed := by
  induction rows generalizing index index' conformed with
  | nil =>
      cases taken
      rfl
  | cons row rest ih =>
      obtain ⟨first, here, later⟩ := bind_ok_iff.mp taken
      obtain ⟨others, behind, same⟩ := bind_ok_iff.mp later
      cases pure_ok_iff.mp same
      exact bind_ok_iff.mpr ⟨first, Row.conform_of_widened widened here, bind_ok_iff.mpr ⟨others, ih behind, rfl⟩⟩

theorem ofRows_of_widened (widened : Widened columns columns') (made : ofRows name columns rows = .ok table) :
    ofRows name' columns' rows = .ok ⟨name', columns', table.rows⟩ := by
  obtain ⟨conformed, taken, same⟩ := bind_ok_iff.mp made
  cases pure_ok_iff.mp same
  exact bind_ok_iff.mpr ⟨conformed, conformAll_of_widened widened taken, rfl⟩

theorem retaken_of_widened (widened : Widened columns columns') (made : ofRows name columns rows = .ok table) :
    ofRows name' columns' table.rows = .ok ⟨name', columns', table.rows⟩ := by
  have retaken := (ofRows_fixed made).retaken
  rw [(ofRows_made made).2.1] at retaken
  exact ofRows_of_widened widened retaken

/-- One type is as wide as another or wider when it admits all of its values. Wider columns take the rows of
every table as they are, and make the same rows of what the table was made from; restricting the table to them changes
nothing but its name and its types. -/
theorem rows_kept_by_widening :
    (∀ narrow wide : ColumnType,
      narrow.Widens wide ↔ ∀ value, narrow.accepts value = true → wide.accepts value = true) ∧
    ∀ (name name' : String) (columns columns' : List Column) (rows : List Row) (table : Table),
      ofRows name columns rows = .ok table → Widened columns columns' →
        ofRows name' columns' table.rows = .ok ⟨name', columns', table.rows⟩ ∧
        ofRows name' columns' rows = .ok ⟨name', columns', table.rows⟩ ∧
        restrict name' columns' table = .ok ⟨name', columns', table.rows⟩ := by
  refine ⟨fun narrow wide => ⟨fun widens _ => ColumnType.accepts_of_widens widens, ColumnType.widens_of_accepts⟩, ?_⟩
  intro name name' columns columns' rows table made widened
  have retaken : ofRows name' columns' table.rows = .ok ⟨name', columns', table.rows⟩ :=
    retaken_of_widened widened made
  refine ⟨retaken, ofRows_of_widened widened made, ?_⟩
  cases widened with
  | nil =>
      have none : table.columns = [] := (ofRows_made made).2.1
      rw [restrict, rename, none]
      rfl
  | cons => exact retaken

theorem nested_counts_widened :
    let counts : Json := .array [.array [.number (.int 7), .null], .null]
    let columns : List Column := [⟨"counts", .list (.list .int32)⟩, ⟨"label", .str⟩, ⟨"label", .int64⟩]
    let wider : List Column := [⟨"counts", .list (.list .double)⟩, ⟨"label", .bytes⟩, ⟨"label", .float⟩]
    let table : Table := ⟨"narrow", columns, [[("counts", counts), ("label", .null)]]⟩
    ofRows "narrow" columns [[("label", .string "x"), ("counts", counts)]] = .ok table ∧ Widened columns wider ∧
      ofRows "wide" wider table.rows = .ok ⟨"wide", wider, table.rows⟩ := by
  intro counts columns wider table
  have made : ofRows "narrow" columns [[("label", .string "x"), ("counts", counts)]] = .ok table := by rfl
  have real : ColumnType.Widens .int32 .double := .trans .int32 (.trans .int64 .float)
  have widened : Widened columns wider :=
    .cons ⟨rfl, .list (.list real)⟩ (.cons ⟨rfl, .str⟩ (.cons ⟨rfl, .int64⟩ .nil))
  exact ⟨made, widened, (rows_kept_by_widening.2 "narrow" "wide" columns wider _ table made widened).1⟩

end Table

end Curator
