import Curator.Proofs.Decimal.Comparison
import Curator.Table.Order
/-!
What ordering rows comes to: the same rows, those with a number in the column first, their numbers
ascending or descending, and rows that nothing tells apart in the order in which they were given.
-/

set_option autoImplicit false

namespace Curator

def Json.isFinite : Json → Bool
  | .number (.double value) => value.isFinite
  | _ => true

namespace Row

open Double

def Finite (row : Row) : Prop := ∀ member ∈ row, member.2.isFinite = true

instance (row : Row) : Decidable row.Finite := inferInstanceAs (Decidable (∀ member ∈ row, member.2.isFinite = true))

def InOrder (column : String) (direction : Direction) (first second : Row) : Prop :=
  ∀ behind, numberIn column second = some behind → ∃ ahead, numberIn column first = some ahead ∧
    match direction with
    | .ascending => ¬ behind < ahead
    | .descending => ¬ ahead < behind

def Comparable (column : String) (row : Row) : Prop :=
  ∀ number, numberIn column row = some number → number.isNaN = false

def tied (column : String) (first second : Row) : Bool :=
  match numberIn column first, numberIn column second with
  | some x, some y => !(x < y) && !(y < x)
  | none, none => true
  | _, _ => false

structure Ordered (column : String) (direction : Direction) (rows ordered : List Row) : Prop where
  perm : ordered.Perm rows
  sorted : ordered.Pairwise (InOrder column direction)
  stable : ∀ row ∈ rows, ordered.filter (tied column row) = rows.filter (tied column row)

variable {column : String} {direction : Direction} {rows : List Row} {row first second : Row}

theorem precedes_iff : precedes column direction first second = true ↔ InOrder column direction first second := by
  rw [precedes, InOrder]
  cases numberIn column first <;> cases numberIn column second <;> cases direction <;> simp

theorem Finite.value? {name : String} {value : Json} (finite : row.Finite) (held : row.value? name = some value) :
    value.isFinite = true := by
  obtain ⟨before, after, split, -⟩ := List.lookup_eq_some_iff.mp held
  exact finite (name, value) (split ▸ List.mem_append_right before List.mem_cons_self)

theorem Finite.comparable (finite : row.Finite) : row.Comparable column := by
  intro number held
  obtain ⟨value, found, read⟩ := Option.bind_eq_some_iff.mp held
  obtain ⟨own, isNumber, rfl⟩ := Option.map_eq_some_iff.mp read
  cases value with
  | number content =>
      cases isNumber
      cases own with
      | int size => exact ofInt_isNumber size
      | double size => exact isNumber_of_isFinite (finite.value? found)
  | null | bool | string | array | object => cases isNumber

/-! The order by ranks, in which any two rows are comparable. -/

def rankIn (column : String) (row : Row) : Option (ℤ ×ₗ ℤ ×ₗ ℤ) := (numberIn column row).map rank

def inFront (direction : Direction) : Option (ℤ ×ₗ ℤ ×ₗ ℤ) → Option (ℤ ×ₗ ℤ ×ₗ ℤ) → Bool
  | some first, some second => match direction with
      | .ascending => decide (first ≤ second)
      | .descending => decide (second ≤ first)
  | some _, none => true
  | none, some _ => false
  | none, none => true

theorem inFront_trans {first second third : Option (ℤ ×ₗ ℤ ×ₗ ℤ)} (ahead : inFront direction first second = true)
    (behind : inFront direction second third = true) : inFront direction first third = true := by
  cases first with
  | none => cases second <;> cases third <;> simp_all [inFront]
  | some x =>
      cases third with
      | none => rfl
      | some z =>
          cases second with
          | none => cases behind
          | some y =>
              cases direction with
              | ascending => exact decide_eq_true ((of_decide_eq_true ahead).trans (of_decide_eq_true behind))
              | descending => exact decide_eq_true ((of_decide_eq_true behind).trans (of_decide_eq_true ahead))

theorem inFront_total (first second : Option (ℤ ×ₗ ℤ ×ₗ ℤ)) :
    (inFront direction first second || inFront direction second first) = true := by
  cases first <;> cases second <;> cases direction <;> simp [inFront, le_total]

theorem inFront_refl (place : Option (ℤ ×ₗ ℤ ×ₗ ℤ)) : inFront direction place place = true := by
  cases place <;> cases direction <;> simp [inFront]

def ranked (column : String) (direction : Direction) (first second : Row) : Bool :=
  inFront direction (rankIn column first) (rankIn column second)

theorem ranked_trans (first second third : Row) (ahead : ranked column direction first second = true)
    (behind : ranked column direction second third = true) : ranked column direction first third = true :=
  inFront_trans ahead behind

theorem ranked_total (first second : Row) :
    (ranked column direction first second || ranked column direction second first) = true :=
  inFront_total _ _

theorem precedes_eq_ranked (comparable : first.Comparable column) (comparable' : second.Comparable column) :
    precedes column direction first second = ranked column direction first second := by
  rw [precedes, ranked, rankIn, rankIn]
  cases held : numberIn column first with
  | none => cases numberIn column second <;> rfl
  | some x =>
      cases held' : numberIn column second with
      | none => rfl
      | some y =>
          have isNumber := comparable x held
          have isNumber' := comparable' y held'
          cases direction with
          | ascending => simp [inFront, lt_iff_rank_lt isNumber' isNumber, ← not_lt]
          | descending => simp [inFront, lt_iff_rank_lt isNumber isNumber', ← not_lt]

theorem tied_iff (comparable : first.Comparable column) (comparable' : second.Comparable column) :
    tied column first second = true ↔ rankIn column first = rankIn column second := by
  rw [tied, rankIn, rankIn]
  cases held : numberIn column first with
  | none => cases numberIn column second <;> simp
  | some x =>
      cases held' : numberIn column second with
      | none => simp
      | some y =>
          have isNumber := comparable x held
          have isNumber' := comparable' y held'
          rw [Option.map_some, Option.map_some, Option.some_inj, le_antisymm_iff (a := rank x)]
          simp [lt_iff_rank_lt isNumber isNumber', lt_iff_rank_lt isNumber' isNumber, and_comm]

theorem orderBy_eq_ranked (comparable : ∀ row ∈ rows, row.Comparable column) :
    orderBy column direction rows = rows.mergeSort (ranked column direction) := by
  have same : ∀ first ∈ rows, ∀ second ∈ rows,
      precedes column direction first second = ranked column direction (id first) (id second) :=
    fun first member second member' => precedes_eq_ranked (comparable first member) (comparable second member')
  simpa [orderBy] using List.map_mergeSort same

theorem exists_positions (comparable : ∀ row ∈ rows, row.Comparable column) :
    ∃ order : List Nat, order.Perm (List.range rows.length) ∧
      List.Forall₂ (fun position row => rows[position]? = some row) order (orderBy column direction rows) ∧
      order.Pairwise fun ahead behind => ∀ first second, rows[ahead]? = some first → rows[behind]? = some second →
        InOrder column direction first second ∧ (InOrder column direction second first → ahead < behind) := by
  let sorted := rows.zipIdx.mergeSort (List.zipIdxLE (ranked column direction))
  have ordered : orderBy column direction rows = sorted.map Prod.fst := by
    rw [orderBy_eq_ranked comparable, ← List.mergeSort_zipIdx]
  have perm : sorted.Perm rows.zipIdx := List.mergeSort_perm _ _
  have placed : ∀ entry ∈ sorted, rows[entry.2]? = some entry.1 := by
    intro entry member
    exact List.mem_zipIdx_iff_getElem?.mp (perm.mem_iff.mp member)
  have positions : (sorted.map Prod.snd).Perm (List.range rows.length) := by
    rw [List.range_eq_range', ← List.zipIdx_map_snd 0 rows]
    exact perm.map Prod.snd
  have distinct : sorted.Pairwise fun entry other => entry.2 ≠ other.2 :=
    List.pairwise_map.mp (positions.nodup_iff.mpr List.nodup_range)
  have inFront : sorted.Pairwise fun entry other => List.zipIdxLE (ranked column direction) entry other = true :=
    List.pairwise_mergeSort (List.zipIdxLE_trans ranked_trans) (List.zipIdxLE_total ranked_total) rows.zipIdx
  refine ⟨sorted.map Prod.snd, positions, ?_, ?_⟩
  · rw [ordered, List.forall₂_map_left_iff, List.forall₂_map_right_iff, List.forall₂_same]
    exact placed
  · refine List.pairwise_map.mpr ((inFront.and distinct).imp_of_mem fun {entry other} member member' both => ?_)
    intro first second here there
    cases (placed entry member).symm.trans here
    cases (placed other member').symm.trans there
    have comparableHere := comparable _ (List.mem_of_getElem? here)
    have comparableThere := comparable _ (List.mem_of_getElem? there)
    rw [← precedes_iff, ← precedes_iff, precedes_eq_ranked comparableHere comparableThere,
      precedes_eq_ranked comparableThere comparableHere]
    obtain ⟨ahead, apart⟩ := both
    rw [List.zipIdxLE] at ahead
    split at ahead
    · rename_i before
      refine ⟨before, fun back => ?_⟩
      rw [if_pos back, decide_eq_true_eq] at ahead
      omega
    · cases ahead

theorem ordered_of_comparable (comparable : ∀ row ∈ rows, row.Comparable column) :
    Ordered column direction rows (orderBy column direction rows) := by
  have perm : (orderBy column direction rows).Perm rows := List.mergeSort_perm rows _
  refine ⟨perm, ?_, fun row member => ?_⟩
  · have sorted := @List.pairwise_mergeSort _ (ranked column direction) ranked_trans ranked_total rows
    rw [← orderBy_eq_ranked comparable] at sorted
    refine sorted.imp_of_mem fun {first second} member member' ahead => ?_
    rwa [← precedes_iff, precedes_eq_ranked (comparable first (perm.mem_iff.mp member))
      (comparable second (perm.mem_iff.mp member'))]
  · -- The rows that are tied with one are sorted as they stand, so that they stay in a row.
    have alike : (rows.filter (tied column row)).Pairwise fun first second =>
        ranked column direction first second = true := by
      refine List.pairwise_of_forall_mem_list fun first inside second inside' => ?_
      obtain ⟨own, ties⟩ := List.mem_filter.mp inside
      obtain ⟨own', ties'⟩ := List.mem_filter.mp inside'
      have same := (tied_iff (comparable row member) (comparable first own)).mp ties
      have same' := (tied_iff (comparable row member) (comparable second own')).mp ties'
      rw [ranked, ← same, same']
      exact inFront_refl _
    have within := List.sublist_mergeSort ranked_trans ranked_total alike List.filter_sublist
    rw [← orderBy_eq_ranked comparable] at within
    have filtered := within.filter (tied column row)
    simp only [List.filter_filter, Bool.and_self] at filtered
    exact (filtered.eq_of_length (perm.filter _).length_eq.symm).symm

theorem orderBy_ordered (finite : ∀ row ∈ rows, row.Finite) :
    Ordered column direction rows (orderBy column direction rows) :=
  ordered_of_comparable fun row member => (finite row member).comparable

theorem orderBy_of_sorted (sorted : rows.Pairwise (InOrder column direction)) :
    orderBy column direction rows = rows :=
  List.mergeSort_of_pairwise (sorted.imp precedes_iff.mpr)

end Row

end Curator
