import Curator.Table
/-!
Column types: each is read back from its name, however deep the lists are. The whole-number types admit the
integers of their width, and those of doubles, and no others, admit what is made of a double.
-/

set_option autoImplicit false

namespace Curator

def Text.folded (text : List Char) : List Char := (trim text).map Char.toLower

theorem Text.trim_of_unblank {text : List Char} (unblank : ∀ c ∈ text, isBlank c = false) : trim text = text := by
  have whole {text : List Char} (unblank : ∀ c ∈ text, isBlank c = false) : text.dropWhile isBlank = text := by
    cases text with
    | nil => rfl
    | cons first rest => exact List.dropWhile_cons_of_neg (by simp [unblank first List.mem_cons_self])
  rw [trim, whole unblank, whole fun c member => unblank c (List.mem_reverse.mp member), List.reverse_reverse]

theorem Number.inInt64_of_inInt32 {value : Int} (fits : inInt32 value = true) : inInt64 value = true := by
  simp only [inInt32, Bool.and_eq_true, decide_eq_true_eq] at fits
  rw [inInt64, Bool.and_eq_true, decide_eq_true_eq, decide_eq_true_eq, minInt64, maxInt64]
  omega

namespace ColumnType

theorem name_list (element : ColumnType) :
    (list element).name.toList = ['l', 'i', 's', 't', '_'] ++ element.name.toList := by
  simp [name]

def isPlain (c : Char) : Bool := !Text.isBlank c && c.toLower == c

theorem name_plain (type : ColumnType) : type.name.toList.all isPlain = true := by
  induction type with
  | list element ih =>
      rw [name_list, List.all_append, ih]
      decide
  | int32 | int64 | float | double | str | bool | bytes => decide

theorem folded_name (type : ColumnType) : Text.folded type.name.toList = type.name.toList := by
  have each : ∀ c ∈ type.name.toList, Text.isBlank c = false ∧ c.toLower = c := by
    intro c member
    simpa [isPlain] using List.all_eq_true.mp type.name_plain c member
  rw [Text.folded, Text.trim_of_unblank fun c member => (each c member).1]
  exact (List.map_congr_left fun c member => (each c member).2).trans (List.map_id _)

theorem parse_eq (text : List Char) :
    parse text = match element? (Text.folded text) with
      | some rest => (parse rest).map list
      | none => match scalar? (Text.folded text) with
        | some type => .ok type
        | none => .error text := by
  rw [parse]
  split
  · rename_i rest inner
    simp only [Text.folded, inner]
  · rename_i scalar
    cases known : scalar? ((Text.trim text).map Char.toLower) <;> simp only [Text.folded, scalar, known]

theorem parse_name (type : ColumnType) : parse type.name.toList = .ok type := by
  rw [parse_eq, folded_name]
  cases type with
  | list element =>
      rw [name_list]
      simp only [element?, List.cons_append, List.nil_append, parse_name element]
      rfl
  | int32 | int64 | float | double | str | bool | bytes => rfl

theorem parse?_name (type : ColumnType) : parse? type.name = .ok type := by
  rw [parse?, parse_name]
  rfl

theorem accepts_int64_iff {value : Int} :
    accepts int64 (.number (.int value)) = true ↔ Number.inInt64 value = true := by
  simp [accepts, Json.int64?, Json.number?, Number.int64?]

theorem accepts_int32_iff {value : Int} :
    accepts int32 (.number (.int value)) = true ↔ Number.inInt32 value = true := by
  by_cases wide : Number.inInt64 value = true
  · simp [accepts, Json.int64?, Json.number?, Number.int64?, wide]
  · have narrow : ¬ Number.inInt32 value = true := fun fits => wide (Number.inInt64_of_inInt32 fits)
    simp [accepts, Json.int64?, Json.number?, Number.int64?, wide, narrow]

theorem accepts_ofFloat {type : ColumnType} (number : Float) (real : type = .float ∨ type = .double) :
    type.accepts (Json.ofFloat number) = true := by
  rw [Json.ofFloat]
  cases Number.ofFloat? number <;> rcases real with rfl | rfl <;> rfl

theorem accepts_ofFloat_iff {type : ColumnType} {number : Float} (finite : number.isFinite = true) :
    type.accepts (Json.ofFloat number) = true ↔ type = .float ∨ type = .double := by
  rw [Json.ofFloat, Number.ofFloat?, if_pos finite]
  cases type <;> simp [accepts, Json.int64?, Json.number?, Number.int64?, Json.isNumber, Json.isString, Json.isBool]

end ColumnType

end Curator
