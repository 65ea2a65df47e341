import Curator.Table.Distinct
import Mathlib.Data.List.Induction
import Mathlib.Data.List.Nodup
/-!
What is left when repeats are removed: the rows without a key, and of the rows with one key the first.
-/

set_option autoImplicit false

namespace Curator.Table

variable {column : String} {rows : List Row}

def keys (column : String) (rows : List Row) : List String := rows.filterMap (keyIn column)

def addition (column : String) (taken : List String) (row : Row) : List Row :=
  match keyIn column row with
  | none => [row]
  | some key => if key ∈ taken then [] else [row]

theorem addition_congr {taken others : List String} (same : ∀ key, key ∈ taken ↔ key ∈ others) (row : Row) :
    addition column taken row = addition column others row := by
  rw [addition, addition]
  cases keyIn column row with
  | none => rfl
  | some key => simp only [same]

theorem distinctAfter_append (seen : List String) (row : Row) :
    distinctAfter column seen (rows ++ [row]) =
      distinctAfter column seen rows ++ addition column (seen ++ keys column (distinctAfter column seen rows)) row := by
  induction rows generalizing seen with
  | nil => cases keyed : keyIn column row <;> simp [distinctAfter, keys, addition, keyed]
  | cons first rest ih =>
      rw [List.cons_append, distinctAfter, distinctAfter]
      cases keyed : keyIn column first with
      | none => simp [ih, keys, keyed]
      | some key =>
          by_cases known : key ∈ seen
          · simp only [known, if_true, ih]
          · simp only [known, if_false, ih, List.cons_append]
            congr 2
            refine addition_congr (fun name => ?_) row
            simp [keys, keyed, or_left_comm]

theorem distinctBy_append (row : Row) :
    distinctBy column (rows ++ [row]) =
      distinctBy column rows ++ addition column (keys column (distinctBy column rows)) row :=
  distinctAfter_append [] row

theorem nodup_keys_distinctBy : (keys column (distinctBy column rows)).Nodup := by
  induction rows using List.reverseRecOn with
  | nil => exact List.nodup_nil
  | append_singleton rows row ih =>
      rw [distinctBy_append, addition]
      cases keyed : keyIn column row with
      | none => simpa [keys, keyed] using ih
      | some key =>
          by_cases known : key ∈ keys column (distinctBy column rows)
          · simpa [known] using ih
          · simp only [known, if_false]
            rw [keys, List.filterMap_append, List.nodup_append]
            refine ⟨ih, by simp [keyed], fun name member other last same => known ?_⟩
            have single : other = key := by simpa [keyed] using last
            rwa [← single, ← same]

theorem distinctAfter_of_nodup {seen : List String} (fresh : (seen ++ keys column rows).Nodup) :
    distinctAfter column seen rows = rows := by
  induction rows generalizing seen with
  | nil => rfl
  | cons first rest ih =>
      rw [distinctAfter]
      cases keyed : keyIn column first with
      | none =>
          have others : (seen ++ keys column rest).Nodup := by simpa [keys, keyed] using fresh
          simp only [ih others]
      | some key =>
          have split : (seen ++ key :: keys column rest).Nodup := by simpa [keys, keyed] using fresh
          obtain ⟨own, apart⟩ := List.nodup_cons.mp (List.nodup_middle.mp split)
          have unseen : key ∉ seen := fun member => own (List.mem_append_left _ member)
          have later : (key :: seen ++ keys column rest).Nodup := List.nodup_middle.mp split
          simp only [unseen, if_false, ih later]

theorem distinctAfter_sublist (column : String) (seen : List String) (rows : List Row) :
    (distinctAfter column seen rows).Sublist rows := by
  induction rows generalizing seen with
  | nil => exact .slnil
  | cons row rest ih =>
      rw [distinctAfter]
      cases keyIn column row with
      | none => exact (ih seen).cons_cons row
      | some key =>
          by_cases known : key ∈ seen
          · simp only [known, if_true]
            exact (ih seen).cons row
          · simp only [known, if_false]
            exact (ih (key :: seen)).cons_cons row

theorem distinctAfter_eq_eraseDupsBy {same : Row → Row → Bool}
    (keyed : ∀ row ∈ rows, ∀ other ∈ rows,
      same row other = true ↔ ∃ key, keyIn column row = some key ∧ keyIn column other = some key)
    (seen : List String) :
    distinctAfter column seen rows = (rows.filter fun row => (keyIn column row).all (· ∉ seen)).eraseDupsBy same := by
  induction rows generalizing seen with
  | nil => rfl
  | cons first rest ih =>
      have later := ih fun row member other member' => keyed row (.tail _ member) other (.tail _ member')
      have apart : ∀ row ∈ rest, same row first = true ↔
          ∃ key, keyIn column row = some key ∧ keyIn column first = some key :=
        fun row member => keyed row (.tail _ member) first (.head _)
      rw [distinctAfter]
      cases known : keyIn column first with
      | none =>
          dsimp only
          rw [List.filter_cons_of_pos (by simp [known]), List.eraseDupsBy_cons, later, List.filter_filter]
          congr 2
          refine List.filter_congr fun row member => ?_
          simp [← Bool.not_eq_true, apart row member, known]
      | some key =>
          dsimp only
          by_cases taken : key ∈ seen
          · rw [if_pos taken, later, List.filter_cons_of_neg (by simp [known, taken])]
          · rw [if_neg taken, List.filter_cons_of_pos (by simp [known, taken]), List.eraseDupsBy_cons, later,
              List.filter_filter]
            congr 2
            refine List.filter_congr fun row member => ?_
            cases own : keyIn column row with
            | none => simp [← Bool.not_eq_true, apart row member, own]
            | some key' => simp [← Bool.not_eq_true, apart row member, known, own, @eq_comm _ key]

theorem distinctBy_of_nodup (fresh : (keys column rows).Nodup) : distinctBy column rows = rows :=
  distinctAfter_of_nodup fresh

/-- The rows at the given positions are what is left of the rows when repeats are removed: every other
row has the key of a row that stays ahead of it. -/
structure Leads (column : String) (rows : List Row) (kept : List Nat) : Prop where
  increasing : kept.Pairwise (· < ·)
  inside : ∀ index ∈ kept, index < rows.length
  covers : ∀ index row, rows[index]? = some row → index ∉ kept →
    ∃ key, keyIn column row = some key ∧ ∃ earlier ∈ kept, earlier < index ∧
      rows[earlier]?.bind (keyIn column) = some key

def rowsAt (rows : List Row) (kept : List Nat) : List Row := kept.filterMap (rows[·]?)

theorem rowsAt_append {kept : List Nat} (inside : ∀ index ∈ kept, index < rows.length) (row : Row) :
    rowsAt (rows ++ [row]) kept = rowsAt rows kept :=
  List.filterMap_congr fun index member => List.getElem?_append_left (inside index member)

theorem rowsAt_length (row : Row) : rowsAt (rows ++ [row]) [rows.length] = [row] := by simp [rowsAt]

section Leads

variable {kept : List Nat} {row : Row}

theorem Leads.covers_append (leads : Leads column rows kept) {index : Nat} {other : Row}
    (found : (rows ++ [row])[index]? = some other) (within : index < rows.length) (absent : index ∉ kept) :
    ∃ key, keyIn column other = some key ∧ ∃ earlier ∈ kept, earlier < index ∧
      (rows ++ [row])[earlier]?.bind (keyIn column) = some key := by
  rw [List.getElem?_append_left within] at found
  obtain ⟨key, keyed, earlier, member, ahead, same⟩ := leads.covers index other found absent
  refine ⟨key, keyed, earlier, member, ahead, ?_⟩
  rw [List.getElem?_append_left (leads.inside earlier member)]
  exact same

theorem Leads.keep (leads : Leads column rows kept) (row : Row) :
    Leads column (rows ++ [row]) (kept ++ [rows.length]) where
  increasing := by
    refine List.pairwise_append.mpr ⟨leads.increasing, List.pairwise_singleton _ _, fun index member last single => ?_⟩
    rw [List.mem_singleton.mp single]
    exact leads.inside index member
  inside index member := by
    rw [List.length_append, List.length_singleton]
    rcases List.mem_append.mp member with before | last
    · exact Nat.lt_succ_of_lt (leads.inside index before)
    · rw [List.mem_singleton.mp last]
      exact Nat.lt_succ_self _
  covers index other found absent := by
    obtain ⟨before, apart⟩ : index ∉ kept ∧ index ≠ rows.length := by simpa using absent
    have bound : index < (rows ++ [row]).length := (List.getElem?_eq_some_iff.mp found).1
    have within : index < rows.length := by
      rw [List.length_append, List.length_singleton] at bound
      omega
    obtain ⟨key, keyed, earlier, member, ahead, same⟩ := leads.covers_append found within before
    exact ⟨key, keyed, earlier, List.mem_append_left _ member, ahead, same⟩

theorem Leads.leave {key : String} (leads : Leads column rows kept) (keyed : keyIn column row = some key)
    (known : key ∈ keys column (rowsAt rows kept)) : Leads column (rows ++ [row]) kept where
  increasing := leads.increasing
  inside index member := by
    rw [List.length_append]
    exact Nat.lt_add_right _ (leads.inside index member)
  covers index other found absent := by
    by_cases within : index < rows.length
    · exact leads.covers_append found within absent
    · have last : other = row := by
        rw [List.getElem?_append_right (Nat.le_of_not_lt within)] at found
        exact List.mem_singleton.mp (List.mem_of_getElem? found)
      obtain ⟨first, taken, same⟩ := List.mem_filterMap.mp known
      obtain ⟨earlier, member, held⟩ := List.mem_filterMap.mp taken
      have ahead := leads.inside earlier member
      refine ⟨key, last ▸ keyed, earlier, member, Nat.lt_of_lt_of_le ahead (Nat.le_of_not_lt within), ?_⟩
      rw [List.getElem?_append_left ahead, held]
      exact same

end Leads

theorem exists_leads (column : String) (rows : List Row) :
    ∃ kept, Leads column rows kept ∧ distinctBy column rows = rowsAt rows kept := by
  induction rows using List.reverseRecOn with
  | nil => exact ⟨[], ⟨.nil, nofun, nofun⟩, rfl⟩
  | append_singleton rows row ih =>
      obtain ⟨kept, leads, left⟩ := ih
      have stays : rowsAt (rows ++ [row]) (kept ++ [rows.length]) = rowsAt rows kept ++ [row] := by
        rw [rowsAt, List.filterMap_append]
        exact congrArg₂ (· ++ ·) (rowsAt_append leads.inside row) (rowsAt_length row)
      rw [distinctBy_append, left, addition]
      cases keyed : keyIn column row with
      | none => exact ⟨_, leads.keep row, stays.symm⟩
      | some key =>
          by_cases known : key ∈ keys column (rowsAt rows kept)
          · refine ⟨kept, leads.leave keyed known, ?_⟩
            simp only [if_pos known, List.append_nil, rowsAt_append leads.inside]
          · refine ⟨_, leads.keep row, ?_⟩
            simp only [if_neg known, stays]

end Curator.Table
