import Curator.Engine.Work
import Curator.Proofs.Decimal.Text
import Curator.Proofs.Derive.Total
import Curator.Proofs.Table.Distinct
import Curator.Proofs.Table.Join
/-!
What the keys of rows tell about the values they are made from. Values with one key are equal. Equal values
have one key, but for a whole number that is written as an integer and as a double, and for the two zeros.
-/

set_option autoImplicit false

namespace Curator

/-! Equal values, and the ways in which they are written. -/

namespace Number

def isFinite : Number → Bool
  | .int _ => true
  | .double number => number.isFinite

def alike : Number → Number → Bool
  | .int _, .int _ => true
  | .double number, .double other =>
      (Binary.ofFloat number).value ≠ 0 || (Binary.ofFloat other).value ≠ 0 ||
        (Binary.ofFloat number).negative == (Binary.ofFloat other).negative
  | _, _ => false

variable {number other : Number}

theorem text_eq_iff (finite : number.isFinite = true) (finite' : other.isFinite = true) :
    number.text = other.text ↔ number.value = other.value ∧ number.alike other = true := by
  cases number with
  | int whole =>
      cases other with
      | int whole' => exact Int.repr_inj.trans (by simp [value, alike])
      | double number' =>
          exact iff_of_false (Decimal.write_ne_toString finite' whole).symm (by simp [alike])
  | double number =>
      cases other with
      | int whole' => exact iff_of_false (Decimal.write_ne_toString finite whole') (by simp [alike])
      | double number' =>
          refine (Decimal.write_inj finite finite').trans ⟨?_, ?_⟩
          · rintro rfl
            exact ⟨rfl, by simp [alike]⟩
          · rintro ⟨worth, zeros⟩
            have known := (Binary.finite_ofFloat finite).eq_of_value (Binary.finite_ofFloat finite') worth
            refine Binary.eq_of_ofFloat (known fun none none' => ?_)
            simpa [alike, Binary.value_eq_zero_iff.mpr none, Binary.value_eq_zero_iff.mpr none'] using zeros

end Number

namespace Json

def equals : Json → Json → Bool
  | .string text, .string other => text = other
  | .bool truth, .bool other => truth = other
  | .number first, .number second => first.value = second.value
  | _, _ => false

def alike : Json → Json → Bool
  | .number first, .number second => first.alike second
  | _, _ => true

def agrees (value other : Json) : Bool := value.equals other && value.alike other

end Json

namespace ColumnType

structure Admits (type : ColumnType) (value : Json) : Prop where
  accepted : type.accepts value = true
  present : value ≠ .null
  finite : ∀ number, value = .number number → number.isFinite = true

variable {type : ColumnType} {value other : Json}

theorem kind_of_scalar (scalar : type ∈ [int32, int64, float, double, str, bool]) :
    type = str ∨ type = bool ∨ type.isNumeric = true := by
  simp only [List.mem_cons, List.not_mem_nil, or_false] at scalar
  rcases scalar with rfl | rfl | rfl | rfl | rfl | rfl <;> simp [isNumeric]

theorem Admits.string (admits : str.Admits value) : ∃ text, value = .string text := by
  obtain ⟨accepted, present, -⟩ := admits
  cases value with
  | string text => exact ⟨text, rfl⟩
  | null => exact absurd rfl present
  | bool | number | array | object => cases accepted

theorem Admits.truth (admits : bool.Admits value) : ∃ truth, value = .bool truth := by
  obtain ⟨accepted, present, -⟩ := admits
  cases value with
  | bool truth => exact ⟨truth, rfl⟩
  | null => exact absurd rfl present
  | string | number | array | object => cases accepted

theorem Admits.number (admits : type.Admits value) (numeric : type.isNumeric = true) :
    ∃ number, value = .number number ∧ number.isFinite = true := by
  obtain ⟨accepted, present, finite⟩ := admits
  cases value with
  | number number => exact ⟨number, rfl, finite number rfl⟩
  | null => exact absurd rfl present
  | bool | string | array | object =>
      cases type with
      | int32 | int64 | float | double => cases accepted
      | str | bool | bytes | list => cases numeric

theorem Admits.int {number : Number} (admits : type.Admits (.number number)) (single : type ≠ .float)
    (double : type ≠ .double) : ∃ whole, number = .int whole := by
  cases number with
  | int whole => exact ⟨whole, rfl⟩
  | double number =>
      cases type with
      | float => exact absurd rfl single
      | double => exact absurd rfl double
      | int32 | int64 | str | bool | bytes | list => cases admits.accepted

theorem double_admits {number : Number} (finite : number.isFinite = true) : double.Admits (.number number) where
  accepted := rfl
  present same := by cases same
  finite other same := by
    cases same
    exact finite

theorem Admits.exists_key (scalar : type ∈ [int32, int64, float, double, str, bool]) (admits : type.Admits value) :
    ∃ key, value.key? = some key := by
  rcases kind_of_scalar scalar with rfl | rfl | numeric
  · obtain ⟨text, rfl⟩ := admits.string
    exact ⟨text, rfl⟩
  · obtain ⟨truth, rfl⟩ := admits.truth
    cases truth <;> exact ⟨_, rfl⟩
  · obtain ⟨number, rfl, -⟩ := admits.number numeric
    exact ⟨number.text, rfl⟩

theorem Admits.key?_eq_iff (scalar : type ∈ [int32, int64, float, double, str, bool]) (admits : type.Admits value)
    (admits' : type.Admits other) :
    value.key? = other.key? ↔ value.agrees other = true := by
  rw [Json.agrees, Bool.and_eq_true]
  rcases kind_of_scalar scalar with rfl | rfl | numeric
  · obtain ⟨text, rfl⟩ := admits.string
    obtain ⟨text', rfl⟩ := admits'.string
    simp [Json.key?, Json.equals, Json.alike]
  · obtain ⟨truth, rfl⟩ := admits.truth
    obtain ⟨truth', rfl⟩ := admits'.truth
    cases truth <;> cases truth' <;> simp [Json.key?, Json.equals, Json.alike]
  · obtain ⟨number, rfl, finite⟩ := admits.number numeric
    obtain ⟨number', rfl, finite'⟩ := admits'.number numeric
    simp [Json.key?, Json.equals, Json.alike, Number.text_eq_iff finite finite']

theorem Admits.alike (admits : type.Admits value) (admits' : type.Admits other) (single : type ≠ .float)
    (double : type ≠ .double) : value.alike other = true := by
  cases value with
  | number number =>
      cases other with
      | number number' =>
          obtain ⟨whole, rfl⟩ := admits.int single double
          obtain ⟨whole', rfl⟩ := admits'.int single double
          rfl
      | null | bool | string | array | object => rfl
  | null | bool | string | array | object => rfl

end ColumnType

/-! Rows that have equal values in a column. -/

def Row.agree (column : String) (row other : Row) : Bool :=
  match row.value? column, other.value? column with
  | some value, some value' => value.agrees value'
  | _, _ => false

namespace Table

variable {type : ColumnType} {column : String} {rows : List Row} {row other : Row}

def Fills (type : ColumnType) (column : String) (row : Row) : Prop :=
  ∀ value, row.value? column = some value → value = .null ∨ type.Admits value

theorem Fills.agree_iff (scalar : type ∈ [.int32, .int64, .float, .double, .str, .bool])
    (fills : Fills type column row) (fills' : Fills type column other) :
    row.agree column other = true ↔ ∃ key, keyIn column row = some key ∧ keyIn column other = some key := by
  rw [Row.agree, keyIn, keyIn]
  cases held : row.value? column with
  | none => simp
  | some value =>
      cases held' : other.value? column with
      | none => simp
      | some value' =>
          rcases fills value held with rfl | admits
          · cases value' <;> simp [Json.key?, Json.agrees, Json.equals]
          · rcases fills' value' held' with rfl | admits'
            · cases value <;> simp [Json.key?, Json.agrees, Json.equals]
            · obtain ⟨key, own⟩ := admits.exists_key scalar
              rw [← admits.key?_eq_iff scalar admits', Option.bind_some, Option.bind_some, own]
              constructor
              · exact fun same => ⟨key, rfl, same.symm⟩
              · rintro ⟨_, first, second⟩
                exact first.trans second.symm

section Scalar

variable (scalar : type ∈ [.int32, .int64, .float, .double, .str, .bool])
include scalar

theorem distinctBy_eq_eraseDupsBy (fills : ∀ row ∈ rows, Fills type column row) :
    distinctBy column rows = rows.eraseDupsBy (Row.agree column) := by
  rw [distinctBy, distinctAfter_eq_eraseDupsBy fun row member other member' =>
    (fills row member).agree_iff scalar (fills other member')]
  congr 1
  exact List.filter_eq_self.mpr fun row _ => by cases keyIn column row <;> rfl

theorem firstUnder_eq_find? (fills : Fills type column row) (fills' : ∀ other ∈ rows, Fills type column other)
    {key : String} (keyed : keyIn column row = some key) :
    firstUnder column key rows = rows.find? (row.agree column) := by
  rw [firstUnder]
  refine List.find?_congr fun other member => ?_
  rw [Bool.eq_iff_iff, fills.agree_iff scalar (fills' other member), keyed]
  simp

theorem completed_eq_foldl {others : List Table} (fills : Fills type column row)
    (fills' : ∀ other ∈ others, ∀ row ∈ other.rows, Fills type column row) :
    completed column others row =
      others.foldl (fun known other => (other.rows.find? (row.agree column)).elim known (adopt known)) row := by
  rw [completed]
  cases keyed : keyIn column row with
  | none =>
      have lost (known : Row) (other : Table) (member : other ∈ others) :
          (other.rows.find? (row.agree column)).elim known (adopt known) = known := by
        have apart : other.rows.find? (row.agree column) = none := by
          refine List.find?_eq_none.mpr fun found inside => ?_
          simp [fills.agree_iff scalar (fills' other member found inside), keyed]
        rw [apart, Option.elim_none]
      rw [List.foldl_ext _ _ row lost]
      exact (List.foldl_fixed others).symm
  | some key =>
      refine List.foldl_ext _ _ row fun known other member => ?_
      rw [adoptFrom, firstUnder_eq_find? scalar fills (fills' other member) keyed]

theorem select_eq_filter {value : Json} {key : String} (fills : ∀ row ∈ rows, Fills type column row)
    (admits : type.Admits value) (keyed : value.key? = some key) :
    Source.select (some (column, key)) rows =
      rows.filter fun row => (row.value? column).any value.agrees := by
  rw [Source.select]
  refine List.filter_congr fun row member => ?_
  rw [keyIn]
  cases held : row.value? column with
  | none => rfl
  | some other =>
      rcases fills row member other held with rfl | admits'
      · cases value <;> rfl
      · rw [Option.bind_some, Option.any_some, Bool.eq_iff_iff, beq_iff_eq, ← admits.key?_eq_iff scalar admits', keyed,
          eq_comm]

end Scalar

/-- In a column of a scalar type rows are matched by the values they have there. Values that are not equal
never have one key. Equal values have one key unless they are a whole number that is an integer in one place
and a double in the other, or are zeros of different signs; types other than those of doubles admit no such
values. So a service removes a row when an earlier one agrees with it, a join completes a row from the first
one of each table that agrees with it, and a filter keeps the rows that agree with what is asked for. -/
theorem matched_by_value (scalar : type ∈ [.int32, .int64, .float, .double, .str, .bool]) :
    (∀ value other : Json, type.Admits value → type.Admits other →
      (∃ key, value.key? = some key) ∧
      (value.key? = other.key? ↔ value.equals other = true ∧ value.alike other = true) ∧
      (type ≠ .float → type ≠ .double → value.alike other = true)) ∧
    (∀ rows : List Row, (∀ row ∈ rows, Fills type column row) →
      distinctBy column rows = rows.eraseDupsBy (Row.agree column)) ∧
    (∀ (name : String) (base : Table) (others : List Table),
      (∀ table ∈ base :: others, ∀ row ∈ table.rows, Fills type column row) →
      join name column (base :: others) =
        ofRows name (unionColumns ((base :: others).map Table.columns)) (base.rows.map fun row =>
          others.foldl (fun known other => (other.rows.find? (row.agree column)).elim known (adopt known)) row)) ∧
    (∀ (rows : List Row) (value : Json) (key : String), (∀ row ∈ rows, Fills type column row) → type.Admits value →
      value.key? = some key →
      Source.select (some (column, key)) rows = rows.filter fun row => (row.value? column).any value.agrees) := by
  refine ⟨fun value other admits admits' => ?_, fun rows fills => ?_, fun name base others fills => ?_, ?_⟩
  · refine ⟨admits.exists_key scalar, ?_, admits.alike admits'⟩
    rw [admits.key?_eq_iff scalar admits', Json.agrees, Bool.and_eq_true]
  · exact distinctBy_eq_eraseDupsBy scalar fills
  · obtain ⟨own, foreign⟩ := List.forall_mem_cons.mp fills
    rw [join_cons]
    congr 1
    exact List.map_congr_left fun row member => completed_eq_foldl scalar (own row member) foreign
  · exact fun rows value key fills admits keyed => select_eq_filter scalar fills admits keyed

theorem whole_prices_apart :
    let whole : Json := .number (.int 1)
    let double : Json := .number (.double 1.0)
    let prices : Table := ⟨"prices", [⟨"price", .double⟩], [[("price", whole)], [("price", double)]]⟩
    let labels : Table := ⟨"labels", [⟨"price", .double⟩, ⟨"label", .str⟩],
      [[("price", double), ("label", .string "cheap")]]⟩
    (∀ table ∈ [prices, labels], ∀ row ∈ table.rows, Fills .double "price" row) ∧
      whole.equals double = true ∧ whole.key? ≠ double.key? ∧ distinctBy "price" prices.rows = prices.rows ∧
      (∃ made, join "joined" "price" [prices, labels] = .ok made ∧ made.rows =
        [[("price", whole), ("label", .null)], [("price", double), ("label", .string "cheap")]]) ∧
      Source.select (some ("price", "1")) prices.rows = [[("price", whole)]] := by
  intro whole double prices labels
  have equal : whole.equals double = true := by
    have worth : (Number.int 1).value = (Number.double 1.0).value := by
      rw [Action.value_one, Number.value, Int.cast_one]
    exact decide_eq_true worth
  have unlike : whole.alike double = false := rfl
  have itself : double.agrees double = true := by simp [double, Json.agrees, Json.equals, Json.alike, Number.alike]
  have admits : ColumnType.double.Admits whole := ColumnType.double_admits rfl
  have admits' : ColumnType.double.Admits double := ColumnType.double_admits (by decide : (1.0 : Float).isFinite = true)
  have fills : ∀ table ∈ [prices, labels], ∀ row ∈ table.rows, Fills .double "price" row := by
    simp only [prices, labels, List.forall_mem_cons]
    refine ⟨⟨?_, ?_, List.forall_mem_nil _⟩, ⟨?_, List.forall_mem_nil _⟩, List.forall_mem_nil _⟩
    · exact fun _ held => .inr (Option.some.inj held ▸ admits)
    · exact fun _ held => .inr (Option.some.inj held ▸ admits')
    · exact fun _ held => .inr (Option.some.inj held ▸ admits')
  obtain ⟨keys, services, joins, filters⟩ := @matched_by_value .double "price" (by decide)
  refine ⟨fills, equal, fun same => ?_, ?_, ?_, ?_⟩
  · exact Bool.false_ne_true (unlike.symm.trans ((keys whole double admits admits').2.1.mp same).2)
  · have apart : Row.agree "price" [("price", double)] [("price", whole)] = false :=
      Bool.and_eq_false_imp.mpr fun _ => rfl
    rw [services prices.rows (fills prices (.head _))]
    simp [prices, List.eraseDupsBy_cons, apart]
  · have first : Row.agree "price" [("price", whole)] [("price", double), ("label", .string "cheap")] = false :=
      Bool.and_eq_false_imp.mpr fun _ => unlike
    have second : Row.agree "price" [("price", double)] [("price", double), ("label", .string "cheap")] = true :=
      itself
    rw [joins "joined" prices [labels] fills]
    simp only [prices, labels, List.map_cons, List.map_nil, List.foldl_cons, List.foldl_nil, List.find?_cons, first,
      second]
    exact ⟨_, rfl, rfl⟩
  · have itself : whole.agrees whole = true := by simp [whole, Json.agrees, Json.equals, Json.alike, Number.alike]
    have apart : whole.agrees double = false := Bool.and_eq_false_imp.mpr fun _ => unlike
    rw [filters prices.rows whole "1" (fills prices (.head _)) admits rfl]
    simp [prices, Row.value?, itself, apart]

end Table

end Curator
