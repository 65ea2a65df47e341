import Curator.Proofs.Decimal.Whole
import Curator.Proofs.Table.Order
/-!
Ordering rows by 64-bit integers. They are compared as doubles, so that up to `2 ^ 53` the rows come in the
order of their integers, and beyond it two integers that are the same double are a tie.
-/

set_option autoImplicit false

namespace Curator

namespace Row

def integerIn (column : String) (row : Row) : Option Int := (row.value? column).bind Json.int64?

def HoldsInteger (column : String) (row : Row) : Prop :=
  ∀ number, numberIn column row = some number → ∃ integer, integerIn column row = some integer

def InWholeOrder (column : String) (direction : Direction) (first second : Row) : Prop :=
  ∀ behind, integerIn column second = some behind → ∃ ahead, integerIn column first = some ahead ∧
    match direction with
    | .ascending => ahead ≤ behind
    | .descending => behind ≤ ahead

def Blurred (column : String) (first second : Row) : Prop :=
  ∃ integer integer', integerIn column first = some integer ∧ integerIn column second = some integer' ∧
    Float.ofInt integer = Float.ofInt integer' ∧ 2 ^ 53 < max integer.natAbs integer'.natAbs

section Integers

variable {column : String} {direction : Direction} {rows : List Row} {row first second : Row} {integer : Int}

theorem integerIn_eq_some_iff :
    integerIn column row = some integer ↔
      row.value? column = some (.number (.int integer)) ∧ Number.inInt64 integer = true := by
  rw [integerIn]
  constructor
  · intro found
    obtain ⟨value, held, read⟩ := Option.bind_eq_some_iff.mp found
    obtain ⟨number, isNumber, whole⟩ := Option.bind_eq_some_iff.mp read
    cases value with
    | number own =>
        cases isNumber
        cases number with
        | int size =>
            rw [Number.int64?] at whole
            split at whole
            · rename_i bounded
              cases whole
              exact ⟨held, bounded⟩
            · cases whole
        | double size => cases whole
    | null | bool | string | array | object => cases isNumber
  · rintro ⟨held, bounded⟩
    simp [held, Json.int64?, Json.number?, Number.int64?, bounded]

theorem numberIn_of_integerIn (found : integerIn column row = some integer) :
    numberIn column row = some (Float.ofInt integer) := by
  rw [numberIn, (integerIn_eq_some_iff.mp found).1]
  rfl

theorem natAbs_lt_of_integerIn (found : integerIn column row = some integer) : integer.natAbs < 2 ^ 64 := by
  have bounded := (integerIn_eq_some_iff.mp found).2
  rw [Number.inInt64, Bool.and_eq_true, decide_eq_true_eq, decide_eq_true_eq, Number.minInt64, Number.maxInt64] at bounded
  omega

theorem HoldsInteger.comparable (whole : row.HoldsInteger column) : row.Comparable column := by
  intro number held
  obtain ⟨integer, found⟩ := whole number held
  cases held.symm.trans (numberIn_of_integerIn found)
  exact Double.ofInt_isNumber integer

theorem InOrder.whole (ahead : InOrder column direction first second) (whole : first.HoldsInteger column) :
    InWholeOrder column direction first second ∨ Blurred column first second := by
  cases found' : integerIn column second with
  | none => exact .inl fun behind held => nomatch found'.symm.trans held
  | some integer' =>
      obtain ⟨number, held, ordered⟩ := ahead _ (numberIn_of_integerIn found')
      obtain ⟨integer, found⟩ := whole number held
      cases held.symm.trans (numberIn_of_integerIn found)
      have bounded := natAbs_lt_of_integerIn found
      have bounded' := natAbs_lt_of_integerIn found'
      by_cases blurred : Blurred column first second
      · exact .inr blurred
      · refine .inl fun behind same => ⟨integer, found, ?_⟩
        cases found'.symm.trans same
        cases direction with
        | ascending =>
            by_contra less
            rcases Double.ofInt_lt_or_eq bounded' bounded (not_le.mp less) with lesser | ⟨same, large⟩
            · exact ordered lesser
            · exact blurred ⟨integer, integer', found, found', same.symm, max_comm integer'.natAbs _ ▸ large⟩
        | descending =>
            by_contra less
            rcases Double.ofInt_lt_or_eq bounded bounded' (not_le.mp less) with lesser | ⟨same, large⟩
            · exact ordered lesser
            · exact blurred ⟨integer, integer', found, found', same, large⟩

/-- Rows are ordered by the integers of a column, except that integers beyond `2 ^ 53` that are the same
double tie. Up to `2 ^ 53` there are no such. -/
theorem orderBy_integers (whole : ∀ row ∈ rows, row.HoldsInteger column) :
    Ordered column direction rows (orderBy column direction rows) ∧
      (orderBy column direction rows).Pairwise (fun first second =>
        InWholeOrder column direction first second ∨ Blurred column first second) ∧
      ((∀ row ∈ rows, ∀ integer, integerIn column row = some integer → integer.natAbs ≤ 2 ^ 53) →
        (orderBy column direction rows).Pairwise (InWholeOrder column direction)) := by
  have ordered : Ordered column direction rows (orderBy column direction rows) :=
    ordered_of_comparable fun row member => (whole row member).comparable
  have near : (orderBy column direction rows).Pairwise fun first second =>
      InWholeOrder column direction first second ∨ Blurred column first second :=
    ordered.sorted.imp_of_mem fun {first _} member _ ahead =>
      ahead.whole (whole first (ordered.perm.mem_iff.mp member))
  refine ⟨ordered, near, fun small => near.imp_of_mem fun {first second} member member' pair => ?_⟩
  refine pair.resolve_right ?_
  rintro ⟨integer, integer', found, found', -, large⟩
  have bounded := small first (ordered.perm.mem_iff.mp member) integer found
  have bounded' := small second (ordered.perm.mem_iff.mp member') integer' found'
  omega

theorem counts_ordered :
    let rows : List Row := [[("count", .number (.int 7))], [("count", .null)], [("count", .number (.int 9007199254740992))]]
    (∀ row ∈ rows, row.HoldsInteger "count") ∧
      (∀ row ∈ rows, ∀ integer, integerIn "count" row = some integer → integer.natAbs ≤ 2 ^ 53) ∧
      (orderBy "count" .descending rows).Pairwise (InWholeOrder "count" .descending) := by
  intro rows
  have whole : ∀ row ∈ rows, row.HoldsInteger "count" := by
    refine List.forall_mem_cons.mpr ⟨fun _ _ => ⟨7, rfl⟩, List.forall_mem_cons.mpr ⟨nofun, ?_⟩⟩
    exact List.forall_mem_singleton.mpr fun _ _ => ⟨9007199254740992, rfl⟩
  have small : ∀ row ∈ rows, ∀ integer, integerIn "count" row = some integer → integer.natAbs ≤ 2 ^ 53 := by
    refine List.forall_mem_cons.mpr ⟨?_, List.forall_mem_cons.mpr ⟨nofun, List.forall_mem_singleton.mpr ?_⟩⟩
    · intro integer found
      cases (found : some (7 : Int) = some integer)
      decide
    · intro integer found
      cases (found : some (9007199254740992 : Int) = some integer)
      decide
  exact ⟨whole, small, (orderBy_integers whole).2.2 small⟩

theorem neighbours_out_of_order :
    ¬ ∀ column direction (rows : List Row), (∀ row ∈ rows, row.HoldsInteger column) →
        (orderBy column direction rows).Pairwise (InWholeOrder column direction) := by
  intro exact
  let greater : Row := [("x", .number (.int 9007199254740993))]
  let lesser : Row := [("x", .number (.int 9007199254740992))]
  have whole : ∀ row ∈ [greater, lesser], row.HoldsInteger "x" :=
    List.forall_mem_cons.mpr ⟨fun _ _ => ⟨9007199254740993, rfl⟩,
      List.forall_mem_singleton.mpr fun _ _ => ⟨9007199254740992, rfl⟩⟩
  have kept : orderBy "x" .ascending [greater, lesser] = [greater, lesser] := by
    have ahead : precedes "x" .ascending greater lesser = true := by rfl
    simp [orderBy, List.mergeSort, ahead]
  have sorted := exact "x" .ascending [greater, lesser] whole
  rw [kept] at sorted
  have pair := (List.pairwise_cons.mp sorted).1 lesser (List.mem_singleton_self lesser)
  obtain ⟨ahead, found, less⟩ := pair 9007199254740992 rfl
  cases (found : some (9007199254740993 : Int) = some ahead)
  exact absurd less (by decide)

end Integers

end Row

end Curator
