import Curator.Proofs.Table.Order
/-!
Ordering rows as a stable sort. Rows are compared by a total preorder, whatever is in the column, and what it sorts
them to is the only list that is sorted, has the same rows and keeps rows that compare equal as they came.
-/

set_option autoImplicit false

namespace Curator

namespace Row

open Double

def comparison (column : String) (direction : Direction) (first second : Row) : Ordering :=
  match numberIn column first, numberIn column second with
  | some x, some y =>
      let order : Ordering := if x < y then .lt else if y < x then .gt else .eq
      match direction with
      | .ascending => order
      | .descending => order.swap
  | some _, none => .lt
  | none, some _ => .gt
  | none, none => .eq

def hasNumber (column : String) (number : Float) (row : Row) : Bool := (numberIn column row).any (· == number)

variable {column : String} {direction : Direction} {rows sorted : List Row} {row first second third : Row}

theorem comparison_swap : comparison column direction first second = (comparison column direction second first).swap := by
  rw [comparison, comparison]
  cases numberIn column first with
  | none => cases numberIn column second <;> rfl
  | some x =>
      cases numberIn column second with
      | none => rfl
      | some y =>
          by_cases less : x < y
          · cases direction <;> simp [less, Double.lt_asymm less]
          · by_cases greater : y < x <;> cases direction <;> simp [less, greater]

theorem precedes_eq_isLE : precedes column direction first second = (comparison column direction first second).isLE := by
  rw [precedes, comparison]
  cases numberIn column first with
  | none => cases numberIn column second <;> rfl
  | some x =>
      cases numberIn column second with
      | none => rfl
      | some y =>
          by_cases less : x < y
          · cases direction <;> simp [less, Double.lt_asymm less]
          · by_cases greater : y < x <;> cases direction <;> simp [less, greater]

theorem comparison_trans (comparable : first.Comparable column) (comparable' : second.Comparable column)
    (comparable'' : third.Comparable column) (ahead : (comparison column direction first second).isLE = true)
    (behind : (comparison column direction second third).isLE = true) :
    (comparison column direction first third).isLE = true := by
  rw [← precedes_eq_isLE] at ahead behind ⊢
  rw [precedes_eq_ranked comparable comparable'] at ahead
  rw [precedes_eq_ranked comparable' comparable''] at behind
  rw [precedes_eq_ranked comparable comparable'']
  exact ranked_trans first second third ahead behind

theorem orderBy_eq_mergeSort :
    orderBy column direction rows = rows.mergeSort fun first second => (comparison column direction first second).isLE := by
  simp only [orderBy, ← precedes_eq_isLE]

/-! No other list is sorted and stable. -/

theorem tied_self : tied column row row = true := by
  rw [tied]
  cases numberIn column row with
  | none => rfl
  | some x =>
      have apart : ¬ x < x := fun less => Double.lt_asymm less less
      simp [apart]

theorem tied_of_inOrder (ahead : InOrder column direction first second) (behind : InOrder column direction second first) :
    tied column first second = true := by
  rw [tied]
  cases held : numberIn column first with
  | none =>
      cases held' : numberIn column second with
      | none => rfl
      | some y =>
          obtain ⟨x, found, -⟩ := ahead y held'
          cases held.symm.trans found
  | some x =>
      obtain ⟨y, held', order⟩ := behind x held
      obtain ⟨x', found, order'⟩ := ahead y held'
      cases held.symm.trans found
      rw [held']
      cases direction <;> simp [order, order']

theorem eq_of_sorted {ordered : List Row} (perm : sorted.Perm ordered) (inOrder : sorted.Pairwise (InOrder column direction))
    (inOrder' : ordered.Pairwise (InOrder column direction))
    (alike : ∀ row ∈ sorted, sorted.filter (tied column row) = ordered.filter (tied column row)) :
    sorted = ordered := by
  induction sorted generalizing ordered with
  | nil => exact perm.nil_eq
  | cons head rest ih =>
      cases ordered with
      | nil => exact perm.eq_nil
      | cons head' rest' =>
          obtain ⟨least, sorted⟩ := List.pairwise_cons.mp inOrder
          obtain ⟨least', sorted'⟩ := List.pairwise_cons.mp inOrder'
          -- Each head stands in front of the other, so that both come first among the rows that are tied with them.
          have ties : tied column head head' = true := by
            rcases List.mem_cons.mp (perm.mem_iff.mp List.mem_cons_self) with same | inside
            · exact same ▸ tied_self
            · rcases List.mem_cons.mp (perm.mem_iff.mpr List.mem_cons_self) with same | inside'
              · exact same ▸ tied_self
              · exact tied_of_inOrder (least head' inside') (least' head inside)
          have front := alike head List.mem_cons_self
          rw [List.filter_cons_of_pos tied_self, List.filter_cons_of_pos ties] at front
          obtain ⟨rfl, -⟩ := List.cons.inj front
          refine congrArg (head :: ·) (ih perm.cons_inv sorted sorted' fun row member => ?_)
          have within := alike row (List.mem_cons_of_mem head member)
          by_cases inside : tied column row head = true
          · rw [List.filter_cons_of_pos inside, List.filter_cons_of_pos inside] at within
            exact (List.cons.inj within).2
          · rw [List.filter_cons_of_neg inside, List.filter_cons_of_neg inside] at within
            exact within

theorem Ordered.unique {other : List Row} (ordered : Ordered column direction rows sorted)
    (ordered' : Ordered column direction rows other) : other = sorted := by
  refine eq_of_sorted (ordered'.perm.trans ordered.perm.symm) ordered'.sorted ordered.sorted fun row member => ?_
  have given : row ∈ rows := ordered'.perm.mem_iff.mp member
  exact (ordered'.stable row given).trans (ordered.stable row given).symm

/-! What rows with equal values, or with none, are left as. -/

theorem Ordered.filter_tied (ordered : Ordered column direction rows sorted) {among : Row → Bool}
    (alike : ∀ row ∈ rows, among row = true → ∀ other ∈ rows, among other = tied column row other) :
    sorted.filter among = rows.filter among := by
  by_cases present : ∃ row ∈ rows, among row = true
  · obtain ⟨row, member, inside⟩ := present
    have same := alike row member inside
    have same' : ∀ other ∈ sorted, among other = tied column row other :=
      fun other member' => same other (ordered.perm.mem_iff.mp member')
    rw [List.filter_congr same, List.filter_congr same', ordered.stable row member]
  · have none : ∀ row ∈ rows, ¬ among row = true := fun row member inside => present ⟨row, member, inside⟩
    have none' : ∀ row ∈ sorted, ¬ among row = true := fun row member => none row (ordered.perm.mem_iff.mp member)
    rw [List.filter_eq_nil_iff.mpr none, List.filter_eq_nil_iff.mpr none']

theorem Ordered.filter_unnumbered (ordered : Ordered column direction rows sorted) :
    sorted.filter (fun row => (numberIn column row).isNone) = rows.filter (fun row => (numberIn column row).isNone) := by
  refine ordered.filter_tied fun row _ none other _ => ?_
  rw [tied, Option.isNone_iff_eq_none.mp none]
  cases numberIn column other <;> rfl

theorem hasNumber_iff {number : Float} (comparable : row.Comparable column) (isNumber : number.isNaN = false) :
    hasNumber column number row = true ↔ rankIn column row = some (rank number) := by
  rw [hasNumber, rankIn]
  cases held : numberIn column row with
  | none => simp
  | some own => simp [beq_iff_rank_eq (comparable own held) isNumber]

theorem Ordered.filter_hasNumber (comparable : ∀ row ∈ rows, row.Comparable column)
    (ordered : Ordered column direction rows sorted) (number : Float) :
    sorted.filter (hasNumber column number) = rows.filter (hasNumber column number) := by
  refine ordered.filter_tied fun row member held other member' => ?_
  have isNumber : number.isNaN = false := by
    obtain ⟨own, -, equal⟩ := (Option.any_eq_true _ _).mp held
    exact isNumber_of_beq equal
  have own := (hasNumber_iff (comparable row member) isNumber).mp held
  rw [Bool.eq_iff_iff, hasNumber_iff (comparable other member') isNumber,
    tied_iff (comparable row member) (comparable other member'), own]
  exact eq_comm

/-- Ordering rows is the stable sort by a total preorder, in which only numbers are compared in the given direction.
The rows are those that were given, first those with a number in the column, by their numbers, and rows with equal
numbers, like those without one, as they came. No other list of the rows is ordered in this way. -/
theorem orderBy_stable (column : String) (direction : Direction) :
    Std.TransCmp (fun first second : {row : Row // row.Finite} => comparison column direction first.val second.val) ∧
    ∀ rows : List Row, (∀ row ∈ rows, row.Finite) →
      (orderBy column direction rows =
        rows.mergeSort fun first second => (comparison column direction first second).isLE) ∧
      (orderBy column direction rows).Perm rows ∧
      (orderBy column direction rows).Pairwise (fun first second =>
        (numberIn column second).isSome = true → (numberIn column first).isSome = true) ∧
      (orderBy column direction rows).Pairwise (fun first second =>
        ∀ x y, numberIn column first = some x → numberIn column second = some y →
          match direction with
          | .ascending => x ≤ y
          | .descending => y ≤ x) ∧
      (∀ number, (orderBy column direction rows).filter (hasNumber column number) =
        rows.filter (hasNumber column number)) ∧
      (orderBy column direction rows).filter (fun row => (numberIn column row).isNone) =
        rows.filter (fun row => (numberIn column row).isNone) ∧
      ∀ other, Ordered column direction rows other → other = orderBy column direction rows := by
  refine ⟨?_, fun rows finite => ?_⟩
  · exact {
      eq_swap := comparison_swap
      isLE_trans := fun {first second third} => comparison_trans first.property.comparable second.property.comparable
        third.property.comparable }
  · have comparable : ∀ row ∈ rows, row.Comparable column := fun row member => (finite row member).comparable
    have ordered : Ordered column direction rows (orderBy column direction rows) := orderBy_ordered finite
    refine ⟨orderBy_eq_mergeSort, ordered.perm, ?_, ?_, ordered.filter_hasNumber comparable, ordered.filter_unnumbered,
      fun other => ordered.unique⟩
    · refine ordered.sorted.imp fun {first second} ahead numbered => ?_
      obtain ⟨behind, held⟩ := Option.isSome_iff_exists.mp numbered
      obtain ⟨number, found, -⟩ := ahead behind held
      exact Option.isSome_iff_exists.mpr ⟨number, found⟩
    · refine ordered.sorted.imp_of_mem fun {first second} member member' ahead x y held held' => ?_
      have isNumber := comparable first (ordered.perm.mem_iff.mp member) x held
      have isNumber' := comparable second (ordered.perm.mem_iff.mp member') y held'
      obtain ⟨number, found, order⟩ := ahead y held'
      cases found.symm.trans held
      cases direction with
      | ascending => exact (le_iff_not_lt isNumber isNumber').mpr order
      | descending => exact (le_iff_not_lt isNumber' isNumber).mpr order

theorem equal_scores_stay :
    let whole : Row := [("score", .number (.int 1))]
    let text : Row := [("score", .string "9")]
    let greater : Row := [("score", .number (.double 2.5))]
    let double : Row := [("score", .number (.double 1.0))]
    let rows : List Row := [whole, text, greater, double, []]
    (∀ row ∈ rows, row.Finite) ∧
      (orderBy "score" .descending rows).filter (hasNumber "score" 1.0) = [whole, double] ∧
      (orderBy "score" .descending rows).filter (fun row => (numberIn "score" row).isNone) = [text, []] := by
  intro whole text greater double rows
  have finite : ∀ row ∈ rows, row.Finite := by decide
  obtain ⟨-, -, -, -, equal, unnumbered, -⟩ := (orderBy_stable "score" .descending).2 rows finite
  exact ⟨finite, equal 1.0, unnumbered⟩

end Row

end Curator
