import Curator.Derive
import Curator.Proofs.Column
import Curator.Proofs.Decimal.Binary
import Curator.Proofs.Graph.WellFormed
import Mathlib.Tactic.Linarith
/-!
Whole-number totals. When all that a total reads is whole, its answer is the exact sum or an error, and
it is an error for no other reason than that the sum, a product or a total on the way to it does not fit.
-/

set_option autoImplicit false

namespace Curator

def Number.value : Number → ℚ
  | .int value => value
  | .double value => (Binary.ofFloat value).value

namespace Action

def FitsInt64 (number : ℚ) : Prop := (Number.minInt64 : ℚ) ≤ number ∧ number ≤ Number.maxInt64

theorem fitsInt64_iff {number : Int} : FitsInt64 number ↔ Number.inInt64 number = true := by
  simp [FitsInt64, Number.inInt64]

def IsWhole (weight : Float) : Prop :=
  weight.isFinite = true ∧ ∃ whole : Int, (Number.double weight).value = whole ∧ whole.natAbs < 2 ^ 63

theorem wholeWeight?_eq_some_iff {weight : Float} {whole : Int} :
    wholeWeight? weight = some whole ↔
      weight.isFinite = true ∧ (Number.double weight).value = whole ∧ whole.natAbs < 2 ^ 63 := by
  rw [wholeWeight?, Number.value]
  split
  · rename_i finite
    rw [Option.filter_eq_some_iff, Binary.whole?_eq_some_iff, decide_eq_true_eq]
    simp [finite, floatBound]
  · rename_i infinite
    simp [infinite]

theorem wholeWeight?_one : wholeWeight? 1.0 = some 1 := by decide

theorem value_one : (Number.double 1.0).value = 1 := by
  obtain ⟨-, worth, -⟩ := wholeWeight?_eq_some_iff.mp wholeWeight?_one
  rw [worth, Int.cast_one]

theorem isWhole_of_wholeWeight? {weight : Float} {whole : Int} (found : wholeWeight? weight = some whole) :
    IsWhole weight := by
  obtain ⟨finite, worth, small⟩ := wholeWeight?_eq_some_iff.mp found
  exact ⟨finite, whole, worth, small⟩

/-! The terms of a total. -/

def share (term : Term) : ℚ := term.1.value * (Number.double term.2).value

structure WholeTerm (term : Term) : Prop where
  amount : ∃ amount : Int, term.1 = .int amount ∧ Number.inInt64 amount = true
  weight : IsWhole term.2

-- Every share fits 64 bits, and so does every total on the way from the first one on.
def Contained (total : ℚ) (shares : List ℚ) : Prop :=
  (∀ share ∈ shares, FitsInt64 share) ∧ ∀ count, FitsInt64 (total + (shares.take count).sum)

theorem contained_nil_iff {total : ℚ} : Contained total [] ↔ FitsInt64 total := by
  simp [Contained]

theorem contained_cons_iff {total share : ℚ} {rest : List ℚ} :
    Contained total (share :: rest) ↔ FitsInt64 total ∧ FitsInt64 share ∧ Contained (total + share) rest := by
  constructor
  · rintro ⟨each, totals⟩
    obtain ⟨here, others⟩ := List.forall_mem_cons.mp each
    refine ⟨by simpa using totals 0, here, others, fun count => ?_⟩
    simpa [add_assoc] using totals (count + 1)
  · rintro ⟨start, here, others, totals⟩
    refine ⟨List.forall_mem_cons.mpr ⟨here, others⟩, fun count => ?_⟩
    cases count with
    | zero => simpa using start
    | succ count => simpa [add_assoc] using totals count

theorem Contained.sum {total : ℚ} {shares : List ℚ} (contained : Contained total shares) :
    FitsInt64 (total + shares.sum) := by
  simpa using contained.2 shares.length

theorem WholeTerm.product {term : Term} (whole : WholeTerm term) : ∃ amount factor : Int,
    term.1 = .int amount ∧ Number.inInt64 amount = true ∧ wholeWeight? term.2 = some factor ∧
      share term = (amount * factor : Int) := by
  obtain ⟨⟨amount, number, bounded⟩, finite, factor, worth, small⟩ := whole
  refine ⟨amount, factor, number, bounded, wholeWeight?_eq_some_iff.mpr ⟨finite, worth, small⟩, ?_⟩
  rw [share, number, worth, Number.value, Int.cast_mul]

theorem sum_of_whole {terms : List Term} (whole : ∀ term ∈ terms, WholeTerm term) :
    ∃ sum : Int, (sum : ℚ) = (terms.map share).sum := by
  induction terms with
  | nil => exact ⟨0, by simp⟩
  | cons term rest ih =>
      obtain ⟨here, others⟩ := List.forall_mem_cons.mp whole
      obtain ⟨amount, factor, -, -, -, product⟩ := here.product
      obtain ⟨sum, behind⟩ := ih others
      exact ⟨amount * factor + sum, by rw [List.map_cons, List.sum_cons, product, ← behind, Int.cast_add]⟩

theorem exactTotal_whole {terms : List Term} (whole : ∀ term ∈ terms, WholeTerm term) {total sum : Int}
    (fits : FitsInt64 total) (reached : (sum : ℚ) = total + (terms.map share).sum) :
    (Contained total (terms.map share) ∧ exactTotal total terms = .exact sum) ∨
      (¬ Contained total (terms.map share) ∧ exactTotal total terms = .overflow) := by
  induction terms generalizing total with
  | nil =>
      have same : sum = total := by simpa using reached
      exact .inl ⟨contained_nil_iff.mpr fits, by rw [same, exactTotal]⟩
  | cons term rest ih =>
      obtain ⟨here, others⟩ := List.forall_mem_cons.mp whole
      obtain ⟨amount, factor, number, bounded, weighed, product⟩ := here.product
      rcases term with ⟨_, weight⟩
      subst number
      have onward : (total : ℚ) + (amount * factor : Int) = (total + amount * factor : Int) := by simp
      rw [List.map_cons, product] at reached ⊢
      rw [List.sum_cons, ← add_assoc, onward] at reached
      rw [contained_cons_iff, onward]
      simp only [exactTotal, Number.int64?, bounded, if_true, weighed]
      by_cases step : (Number.inInt64 (amount * factor) && Number.inInt64 (total + amount * factor)) = true
      · obtain ⟨one, two⟩ := Bool.and_eq_true_iff.mp step
        rw [if_pos step]
        rcases ih others (fitsInt64_iff.mpr two) reached with ⟨contained, same⟩ | ⟨leaves, same⟩
        · exact .inl ⟨⟨fits, fitsInt64_iff.mpr one, contained⟩, same⟩
        · refine .inr ⟨?_, same⟩
          rintro ⟨-, -, contained⟩
          exact leaves contained
      · rw [if_neg step]
        refine .inr ⟨?_, rfl⟩
        rintro ⟨-, one, -, totals⟩
        have two : FitsInt64 ((total + amount * factor : Int) : ℚ) := by simpa using totals 0
        exact step (Bool.and_eq_true_iff.mpr ⟨fitsInt64_iff.mp one, fitsInt64_iff.mp two⟩)

/-! What an action adds up. -/

structure IsTotal (action : Action) : Prop where
  legal : action.fault? = none
  sums : action.formula = .sum ∨ action.formula = .weightedSum
  whole : action.column.type = .int32 ∨ action.column.type = .int64

def weighted (action : Action) : List (String × Float) :=
  match action.formula with
  | .weightedSum => action.operands.zip action.weights
  | _ => action.operands.map (·, 1.0)

def shares (action : Action) (row : Row) : List ℚ :=
  action.weighted.filterMap fun (operand, weight) =>
    (numberOperand? row operand).map fun number => number.value * (Number.double weight).value

structure ReadsWhole (action : Action) (row : Row) : Prop where
  amounts : ∀ operand ∈ action.operands, ∀ number, numberOperand? row operand = some number →
    ∃ amount, number = .int amount ∧ Number.inInt64 amount = true
  weights : action.formula = .weightedSum → ∀ weight ∈ action.weights, IsWhole weight

variable {action : Action} {row : Row}

theorem IsTotal.operands (total : action.IsTotal) : action.weighted.map Prod.fst = action.operands := by
  have consistent := action.fault?_eq_none_iff.mp total.legal
  rcases total.sums with sums | sums
  · simp [weighted, sums, Function.comp_def]
  · simp only [Consistent, sums] at consistent
    rw [weighted, sums]
    exact List.map_fst_zip (Nat.le_of_eq consistent.2.2.symm)

theorem IsTotal.apply (total : action.IsTotal) (row : Row) :
    action.apply row = combine action.column (terms row action.weighted) := by
  rcases total.sums with sums | sums <;> simp only [Action.apply, weighted, sums]

theorem map_share_terms (action : Action) (row : Row) :
    (terms row action.weighted).map share = action.shares row := by
  rw [terms, shares, List.map_filterMap]
  refine List.filterMap_congr fun pair _ => ?_
  rw [Option.map_map]
  rfl

theorem ReadsWhole.terms (reads : action.ReadsWhole row) (total : action.IsTotal) :
    ∀ term ∈ terms row action.weighted, WholeTerm term := by
  intro term member
  obtain ⟨⟨operand, weight⟩, paired, found⟩ := List.mem_filterMap.mp member
  obtain ⟨number, read, rfl⟩ := Option.map_eq_some_iff.mp found
  have listed : operand ∈ action.operands := total.operands ▸ List.mem_map_of_mem paired
  refine ⟨reads.amounts operand listed number read, ?_⟩
  rcases total.sums with sums | sums
  · rw [weighted, sums] at paired
    obtain ⟨_, -, same⟩ := List.mem_map.mp paired
    cases same
    exact isWhole_of_wholeWeight? wholeWeight?_one
  · rw [weighted, sums] at paired
    exact reads.weights sums weight (List.of_mem_zip paired).2

theorem ReadsWhole.sum (reads : action.ReadsWhole row) (total : action.IsTotal) :
    ∃ sum : Int, (sum : ℚ) = (action.shares row).sum := by
  rw [← map_share_terms]
  exact sum_of_whole (reads.terms total)

theorem IsTotal.answer (total : action.IsTotal) (whole : ∀ term ∈ terms row action.weighted, WholeTerm term)
    {sum : Int} (exact : (sum : ℚ) = (action.shares row).sum) :
    (Contained 0 (action.shares row) ∧ action.apply row =
        if action.column.type.accepts (.number (.int sum)) = true then .ok (.number (.int sum))
        else .error (.exceedsInt32 action.column.name sum)) ∨
      (¬ Contained 0 (action.shares row) ∧ action.apply row = .error (.exceedsInt64 action.column.name)) := by
  have start : FitsInt64 ((0 : Int) : ℚ) := fitsInt64_iff.mpr rfl
  have reached : (sum : ℚ) = (0 : Int) + ((terms row action.weighted).map share).sum := by
    rw [map_share_terms, exact, Int.cast_zero, zero_add]
  have adds := exactTotal_whole whole start reached
  rw [map_share_terms, Int.cast_zero] at adds
  rw [total.apply, combine]
  rcases adds with ⟨contained, ends⟩ | ⟨leaves, ends⟩
  · have fits : Number.inInt64 sum = true := fitsInt64_iff.mp (by simpa [exact] using contained.sum)
    have added : wholeTotal? (Action.terms row action.weighted) = some sum := by rw [wholeTotal?, ends]
    refine .inl ⟨contained, ?_⟩
    rcases total.whole with type | type
    · simp only [type, added, ColumnType.accepts_int32_iff]
    · simp only [type, added, ColumnType.accepts_int64_iff, fits, if_true]
  · have none : wholeTotal? (Action.terms row action.weighted) = none := by rw [wholeTotal?, ends]
    refine .inr ⟨leaves, ?_⟩
    rcases total.whole with type | type <;> simp only [type, none]

/-! How far the totals of shares can go, in whatever order they are added. -/

def gains (shares : List ℚ) : ℚ := (shares.map (max · 0)).sum

def losses (shares : List ℚ) : ℚ := (shares.map (min · 0)).sum

theorem sum_between {part shares : List ℚ} (among : part.Sublist shares) :
    losses shares ≤ part.sum ∧ part.sum ≤ gains shares := by
  induction among with
  | slnil => simp [losses, gains]
  | cons share _ ih =>
      simp only [losses, gains, List.map_cons, List.sum_cons] at ih ⊢
      have below := min_le_right share 0
      have above := le_max_right share 0
      exact ⟨by linarith, by linarith⟩
  | cons_cons share _ ih =>
      simp only [losses, gains, List.map_cons, List.sum_cons] at ih ⊢
      exact ⟨add_le_add (min_le_left share 0) ih.1, add_le_add (le_max_left share 0) ih.2⟩

theorem contained_of_gains_of_losses {shares : List ℚ} (up : FitsInt64 (gains shares))
    (down : FitsInt64 (losses shares)) : Contained 0 shares := by
  have fits {part : List ℚ} (among : part.Sublist shares) : FitsInt64 part.sum :=
    ⟨down.1.trans (sum_between among).1, (sum_between among).2.trans up.2⟩
  constructor
  · intro share member
    simpa using fits (List.singleton_sublist.mpr member)
  · intro count
    simpa using fits (shares.take_sublist count)

theorem shares_perm {other : Action} (listed : other.weighted.Perm action.weighted) (row : Row) :
    (other.shares row).Perm (action.shares row) := listed.filterMap _

/-- The answer to a total of whole numbers is the exact sum, if that fits the column and no product or
total on the way to it leaves 64 bits. Where all that is added and all that is taken away fit 64 bits,
nothing ever does, so that all ways to list the operands with their weights have the same answer. -/
theorem total_complete (total : action.IsTotal) (reads : action.ReadsWhole row) :
    ∃ sum : Int, (sum : ℚ) = (action.shares row).sum ∧
      (action.column.type.accepts (.number (.int sum)) = true →
        (action.apply row = .ok (.number (.int sum)) ↔ Contained 0 (action.shares row))) ∧
      (FitsInt64 (gains (action.shares row)) → FitsInt64 (losses (action.shares row)) →
        ∀ other : Action, other.IsTotal → other.column = action.column → other.weighted.Perm action.weighted →
          other.apply row =
            if action.column.type.accepts (.number (.int sum)) = true then .ok (.number (.int sum))
            else .error (.exceedsInt32 action.column.name sum)) := by
  have whole := reads.terms total
  obtain ⟨sum, exact⟩ := reads.sum total
  refine ⟨sum, exact, ?_, ?_⟩
  · intro fits
    rcases total.answer whole exact with ⟨contained, answer⟩ | ⟨leaves, answer⟩
    · simp [answer, fits, contained]
    · simp [answer, leaves]
  · intro up down other total' same listed
    have perm := shares_perm listed row
    have contained : Contained 0 (other.shares row) := by
      refine contained_of_gains_of_losses ?_ ?_
      · rwa [gains, (perm.map _).sum_eq]
      · rwa [losses, (perm.map _).sum_eq]
    have whole' : ∀ term ∈ Action.terms row other.weighted, WholeTerm term :=
      fun term member => whole term ((listed.filterMap _).mem_iff.mp member)
    rcases total'.answer whole' (exact.trans perm.sum_eq.symm) with ⟨-, answer⟩ | ⟨leaves, -⟩
    · rw [answer, same]
    · exact absurd contained leaves

theorem amount_of_members {row : Row}
    (whole : ∀ member ∈ row, ∀ number, member.2 = .number number →
      ∃ amount, number = .int amount ∧ Number.inInt64 amount = true)
    {operand : String} {number : Number} (read : numberOperand? row operand = some number) :
    ∃ amount, number = .int amount ∧ Number.inInt64 amount = true := by
  obtain ⟨value, found, same⟩ := Option.bind_eq_some_iff.mp read
  obtain ⟨ahead, behind, split, -⟩ := List.lookup_eq_some_iff.mp found
  cases value with
  | number inner =>
      cases same
      exact whole (operand, .number number) (by simp [split]) number rfl
  | null | bool | string | array | object => cases same

def balance (operands : List String) : Action := ⟨⟨"balance", .int64⟩, .sum, operands, [], none⟩

def account (held paid spent : Int) : Row :=
  [("held", .number (.int held)), ("paid", .number (.int paid)), ("spent", .number (.int spent)),
    ("owner", .string "o1")]

theorem balance_total {operands : List String} (listed : operands ≠ []) : (balance operands).IsTotal :=
  ⟨(balance operands).fault?_eq_none_iff.mpr ⟨listed, rfl⟩, .inl rfl, .inr rfl⟩

theorem balance_reads (operands : List String) (held paid spent : Int)
    (each : ∀ amount ∈ [held, paid, spent], Number.inInt64 amount = true) :
    (balance operands).ReadsWhole (account held paid spent) := by
  refine ⟨fun operand _ number => amount_of_members ?_, nofun⟩
  simpa [account] using each

theorem balance_shares (held paid spent : Int) :
    (balance ["held", "paid", "spent", "owner"]).shares (account held paid spent) = [(held : ℚ), paid, spent] := by
  have one : (Binary.ofFloat 1.0).value = 1 := value_one
  simp [shares, weighted, balance, account, numberOperand?, Row.value?, Json.number?, List.lookup_cons,
    Number.value, one]

theorem balance_settled :
    let listed := balance ["held", "paid", "spent", "owner"]
    let relisted := balance ["owner", "spent", "held", "paid"]
    let row := account 5 3 (-4)
    listed.IsTotal ∧ listed.ReadsWhole row ∧ listed.apply row = .ok (.number (.int 4)) ∧
      relisted.apply row = .ok (.number (.int 4)) := by
  intro listed relisted row
  have total : listed.IsTotal := balance_total (by simp)
  have reads : listed.ReadsWhole row := balance_reads _ 5 3 (-4) (by decide)
  have shares : listed.shares row = [5, 3, -4] := by simpa using balance_shares 5 3 (-4)
  obtain ⟨sum, exact, answered, relisting⟩ := total_complete total reads
  have four : sum = 4 := by
    rw [shares] at exact
    norm_num at exact
    exact_mod_cast exact
  subst four
  have up : FitsInt64 (gains (listed.shares row)) := by
    rw [shares]
    norm_num [gains, FitsInt64, Number.minInt64, Number.maxInt64]
  have down : FitsInt64 (losses (listed.shares row)) := by
    rw [shares]
    norm_num [losses, FitsInt64, Number.minInt64, Number.maxInt64]
  refine ⟨total, reads, ?_, ?_⟩
  · exact (answered (by decide)).mpr (contained_of_gains_of_losses up down)
  · exact relisting up down relisted (balance_total (by simp)) rfl (by decide)

theorem balance_overflows_on_the_way :
    ¬ ∀ (action : Action) (row : Row) (sum : Int), action.IsTotal → action.ReadsWhole row →
      (sum : ℚ) = (action.shares row).sum → action.column.type.accepts (.number (.int sum)) = true →
        action.apply row = .ok (.number (.int sum)) := by
  intro complete
  have total : (balance ["held", "paid", "spent", "owner"]).IsTotal := balance_total (by simp)
  have reads := balance_reads ["held", "paid", "spent", "owner"] Number.maxInt64 1 (-1) (by decide)
  have answer := complete _ _ Number.maxInt64 total reads (by rw [balance_shares]; simp) (by decide)
  have refused : (balance ["held", "paid", "spent", "owner"]).apply (account Number.maxInt64 1 (-1)) =
      .error (.exceedsInt64 "balance") := rfl
  cases refused.symm.trans answer

/-- Totals of whole numbers are never wrapped, clamped or rounded: an answer is the exact sum over all
operands that are numbers, and the column admits it. Otherwise there is an error, which says of the
exact sum that it does not fit 32 bits, or else a product or a total on the way to it leaves 64 bits. -/
theorem total_sound (total : action.IsTotal) (reads : action.ReadsWhole row) :
    action.weighted.map Prod.fst = action.operands ∧
      (∀ value, action.apply row = .ok value →
        ∃ sum : Int, value = .number (.int sum) ∧ (sum : ℚ) = (action.shares row).sum ∧
          action.column.type.accepts value = true) ∧
      ∀ error, action.apply row = .error error →
        (error = .exceedsInt64 action.column.name ∧ ¬ Contained 0 (action.shares row)) ∨
          ∃ sum : Int, error = .exceedsInt32 action.column.name sum ∧ (sum : ℚ) = (action.shares row).sum ∧
            action.column.type = .int32 ∧ Number.inInt32 sum = false := by
  have whole := reads.terms total
  obtain ⟨sum, exact⟩ := reads.sum total
  refine ⟨total.operands, ?_⟩
  rcases total.answer whole exact with ⟨contained, answer⟩ | ⟨leaves, answer⟩
  · rw [answer]
    by_cases fits : action.column.type.accepts (.number (.int sum)) = true
    · rw [if_pos fits]
      refine ⟨fun value same => ?_, nofun⟩
      cases same
      exact ⟨sum, rfl, exact, fits⟩
    · rw [if_neg fits]
      refine ⟨nofun, fun error same => .inr ?_⟩
      cases same
      rcases total.whole with type | type
      · rw [type, ColumnType.accepts_int32_iff, Bool.not_eq_true] at fits
        exact ⟨sum, rfl, exact, type, fits⟩
      · have within : FitsInt64 sum := by simpa [exact] using contained.sum
        rw [type, ColumnType.accepts_int64_iff] at fits
        exact absurd (fitsInt64_iff.mp within) fits
  · rw [answer]
    exact ⟨nofun, fun error same => .inl ⟨(Except.error.inj same).symm, leaves⟩⟩

def score : Action :=
  ⟨⟨"score", .int32⟩, .weightedSum, ["clicks", "views", "note", "likes"], [3.0, -1.0, 2.0, 2.0], none⟩

theorem score_exact :
    let row : Row := [("clicks", .number (.int 7)), ("views", .number (.int 4)), ("note", .string "n")]
    score.IsTotal ∧ score.ReadsWhole row ∧ score.apply row = .ok (.number (.int 17)) ∧
      (17 : ℚ) = (score.shares row).sum ∧ score.column.type.accepts (.number (.int 17)) = true := by
  intro row
  have total : score.IsTotal := ⟨by decide, .inr rfl, .inl rfl⟩
  have reads : score.ReadsWhole row := by
    refine ⟨fun operand _ number => amount_of_members ?_, fun _ => ?_⟩
    · simp only [row, List.forall_mem_cons, Json.number.injEq, forall_eq']
      exact ⟨⟨7, rfl, rfl⟩, ⟨4, rfl, rfl⟩, nofun, nofun⟩
    · have three : wholeWeight? 3.0 = some 3 := by decide
      have less : wholeWeight? (-1.0) = some (-1) := by decide
      have two : wholeWeight? 2.0 = some 2 := by decide
      simp only [score, List.forall_mem_cons]
      exact ⟨isWhole_of_wholeWeight? three, isWhole_of_wholeWeight? less, isWhole_of_wholeWeight? two,
        isWhole_of_wholeWeight? two, nofun⟩
  have answer : score.apply row = .ok (.number (.int 17)) := rfl
  obtain ⟨-, sound, -⟩ := total_sound total reads
  obtain ⟨sum, same, exact, fits⟩ := sound (.number (.int 17)) answer
  cases same
  exact ⟨total, reads, answer, exact, fits⟩

end Action

end Curator
