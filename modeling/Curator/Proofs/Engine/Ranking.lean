import Curator.Engine.Meaning
import Curator.Engine.Work
import Curator.Proofs.Column
import Curator.Proofs.Table.Order
import Curator.Proofs.Table.Stack
/-!
Rankings. Each candidate gets the score of its own position, the best come first, and what the limit cuts off
is not better than what stays. Nothing can refuse finite scores but a score column that is declared with a
type other than those of doubles.
-/

set_option autoImplicit false

namespace Curator

namespace Ranking

def Outscores (score other : Float) : Prop := score.isFinite = true ∧ (other.isFinite = true → other < score)

def Ahead (scores : List Float) (first second : Nat) : Prop :=
  ∀ score other, scores[first]? = some score → scores[second]? = some other →
    ¬ Outscores other score ∧ (¬ Outscores score other → first < second)

def Scored (ranking : Ranking) (candidates : List Row) (scores : List Float) (position : Nat) (row : Row) : Prop :=
  ∃ candidate score, candidates[position]? = some candidate ∧ scores[position]? = some score ∧
    Row.insert ranking.scoreColumn (Json.ofFloat score) candidate = row

def kept (ranking : Ranking) (order : List Nat) : List Nat :=
  match ranking.limit with
  | some limit => order.take limit
  | none => order

/-- What a ranking shows of candidates. All of their positions are put in order, and the limit cuts them.
Those that it cuts off do not outscore any that it keeps, and of these nothing but the score is new. -/
structure Ranks (ranking : Ranking) (candidates : List Row) (scores : List Float) (order : List Nat)
    (shown : List Row) : Prop where
  all : order.Perm (List.range candidates.length)
  descending : order.Pairwise (Ahead scores)
  scored : List.Forall₂ (ranking.Scored candidates scores) (ranking.kept order) shown
  best : ∀ position ∈ ranking.kept order, ∀ dropped, dropped ∉ ranking.kept order → ∀ score other,
    scores[position]? = some score → scores[dropped]? = some other → ¬ Outscores other score
  others : List.Forall₂ (fun position row => ∀ column ≠ ranking.scoreColumn,
    row.value? column = candidates[position]?.bind fun candidate => candidate.value? column) (ranking.kept order) shown

variable {ranking : Ranking} {candidates : List Row} {scores : List Float} {score other : Float} {row : Row}

/-! The order of scored rows. -/

theorem numberIn_insert (column : String) (score : Float) (row : Row) :
    Row.numberIn column (Row.insert column (Json.ofFloat score) row) = if score.isFinite then some score else none := by
  rw [Row.numberIn, Row.value?_insert_self, Json.ofFloat, Number.ofFloat?]
  by_cases finite : score.isFinite = true
  · rw [if_pos finite, if_pos finite]
    rfl
  · rw [if_neg finite, if_neg finite]
    rfl

theorem inOrder_insert_iff {column : String} {first second : Row} :
    Row.InOrder column .descending (Row.insert column (Json.ofFloat score) first)
        (Row.insert column (Json.ofFloat other) second) ↔ ¬ Outscores other score := by
  rw [Row.InOrder, numberIn_insert, numberIn_insert, Outscores]
  by_cases finite : score.isFinite = true <;> by_cases finite' : other.isFinite = true <;> simp [finite, finite']

theorem scored_iff {position : Nat} :
    (ranking.scoredRows candidates scores)[position]? = some row ↔ ranking.Scored candidates scores position row := by
  rw [scoredRows, List.getElem?_zipWith_eq_some, Scored]

theorem comparable_of_scored {position : Nat} (scored : ranking.Scored candidates scores position row) :
    row.Comparable ranking.scoreColumn := by
  obtain ⟨candidate, score, -, -, rfl⟩ := scored
  intro number held
  rw [numberIn_insert] at held
  split at held
  · rename_i finite
    cases held
    exact Double.isNumber_of_isFinite finite
  · cases held

theorem exists_order (counted : scores.length = candidates.length) :
    ∃ order : List Nat, order.Perm (List.range candidates.length) ∧ order.Pairwise (Ahead scores) ∧
      List.Forall₂ (ranking.Scored candidates scores) order
        (Row.orderBy ranking.scoreColumn .descending (ranking.scoredRows candidates scores)) := by
  have comparable : ∀ row ∈ ranking.scoredRows candidates scores, row.Comparable ranking.scoreColumn := by
    intro row member
    obtain ⟨position, here⟩ := List.mem_iff_getElem?.mp member
    exact comparable_of_scored (scored_iff.mp here)
  have length : (ranking.scoredRows candidates scores).length = candidates.length := by
    rw [scoredRows, List.length_zipWith, counted, Nat.min_self]
  obtain ⟨order, all, placed, sorted⟩ := @Row.exists_positions _ .descending _ comparable
  refine ⟨order, length ▸ all, sorted.imp fun {first second} pair score other here there => ?_,
    placed.imp fun position row => scored_iff.mp⟩
  have candidate {position : Nat} {score : Float} (found : scores[position]? = some score) :
      ∃ candidate, candidates[position]? = some candidate := by
    obtain ⟨inside, -⟩ := List.getElem?_eq_some_iff.mp found
    exact ⟨_, List.getElem?_eq_getElem (counted ▸ inside)⟩
  obtain ⟨one, found⟩ := candidate here
  obtain ⟨two, found'⟩ := candidate there
  have both := pair _ _ (scored_iff.mpr ⟨one, score, found, here, rfl⟩) (scored_iff.mpr ⟨two, other, found', there, rfl⟩)
  rwa [inOrder_insert_iff, inOrder_insert_iff] at both

theorem Scored.others {position : Nat} (scored : ranking.Scored candidates scores position row) {column : String}
    (other : column ≠ ranking.scoreColumn) :
    row.value? column = candidates[position]?.bind fun candidate => candidate.value? column := by
  obtain ⟨candidate, score, found, -, rfl⟩ := scored
  rw [found, Option.bind_some, Row.value?_insert_of_ne _ _ other]

theorem forall₂_kept {pair : Nat → Row → Prop} {order : List Nat} {rows : List Row}
    (alike : List.Forall₂ pair order rows) :
    List.Forall₂ pair (ranking.kept order) (cut ranking.limit rows) := by
  rw [kept]
  cases ranking.limit with
  | none => exact alike
  | some limit => exact List.forall₂_take limit alike

theorem kept_sublist (ranking : Ranking) (order : List Nat) : (ranking.kept order).Sublist order := by
  rw [kept]
  cases ranking.limit with
  | none => exact List.Sublist.refl order
  | some limit => exact List.take_sublist limit order

theorem kept_eq_nil_iff {order : List Nat} : ranking.kept order = [] ↔ ranking.limit = some 0 ∨ order = [] := by
  rw [kept]
  cases ranking.limit with
  | none => simp
  | some limit => simp [List.take_eq_nil_iff]

theorem ahead_of_kept {order : List Nat} {position dropped : Nat} (descending : order.Pairwise (Ahead scores))
    (stays : position ∈ ranking.kept order) (falls : dropped ∉ ranking.kept order) (listed : dropped ∈ order) :
    Ahead scores position dropped := by
  rw [kept] at stays falls
  cases limited : ranking.limit with
  | none =>
      rw [limited] at falls
      exact absurd listed falls
  | some limit =>
      rw [limited] at stays falls
      rw [← List.take_append_drop limit order] at descending listed
      have behind : dropped ∈ order.drop limit := (List.mem_append.mp listed).resolve_left falls
      exact (List.pairwise_append.mp descending).2.2 position stays dropped behind

theorem exists_candidate {positions : List Nat} {rows : List Row}
    (scored : List.Forall₂ (ranking.Scored candidates scores) positions rows) :
    ∀ row ∈ rows, ∃ candidate ∈ candidates, ∃ score ∈ scores,
      Row.insert ranking.scoreColumn (Json.ofFloat score) candidate = row := by
  induction scored with
  | nil => simp
  | cons first _ ih =>
      obtain ⟨candidate, score, found, here, same⟩ := first
      exact List.forall_mem_cons.mpr
        ⟨⟨candidate, List.mem_of_getElem? found, score, List.mem_of_getElem? here, same⟩, ih⟩

theorem exists_ranks (counted : scores.length = candidates.length) :
    ∃ order, ranking.Ranks candidates scores order
      (cut ranking.limit (Row.orderBy ranking.scoreColumn .descending (ranking.scoredRows candidates scores))) := by
  obtain ⟨order, all, descending, scored⟩ := ranking.exists_order counted
  refine ⟨order, all, descending, forall₂_kept scored, ?_, ?_⟩
  · intro position stays dropped falls score other here there
    obtain ⟨inside, -⟩ := List.getElem?_eq_some_iff.mp there
    have listed : dropped ∈ order := all.mem_iff.mpr (List.mem_range.mpr (counted ▸ inside))
    exact (ahead_of_kept descending stays falls listed score other here there).1
  · refine (forall₂_kept scored).imp fun position row here => ?_
    intro column apart
    exact here.others apart

/-! The schema of scored rows. -/

section Schema

variable {columns : List Column} {name : String}

theorem scoredColumns_eq_enlist (ranking : Ranking) (columns : List Column) :
    ranking.scoredColumns columns = enlist columns ⟨ranking.scoreColumn, .double⟩ := rfl

theorem names_scoredColumns (ranking : Ranking) (columns : List Column) :
    (ranking.scoredColumns columns).map Column.name =
      if ranking.scoreColumn ∈ columns.map Column.name then columns.map Column.name
      else columns.map Column.name ++ [ranking.scoreColumn] := by
  rw [scoredColumns]
  by_cases declared : columns.any (·.name = ranking.scoreColumn) = true
  · have member : ranking.scoreColumn ∈ columns.map Column.name := by simpa using declared
    rw [if_pos declared, if_pos member]
  · have fresh : ranking.scoreColumn ∉ columns.map Column.name := by simpa using declared
    rw [if_neg declared, if_neg fresh, List.map_append, List.map_singleton]

theorem nodup_scoredColumns (distinct : (columns.map Column.name).Nodup) :
    ((ranking.scoredColumns columns).map Column.name).Nodup := by
  rw [names_scoredColumns]
  exact Row.nodup_added distinct ranking.scoreColumn

theorem pick_insert (distinct : (columns.map Column.name).Nodup) (conforms : row.Conforms columns) (value : Json) :
    (Row.insert ranking.scoreColumn value row).pick (ranking.scoredColumns columns) =
      Row.insert ranking.scoreColumn value row := by
  refine Row.pick_of_names (nodup_scoredColumns distinct) ?_
  rw [Row.names_insert, names_scoredColumns, conforms.names, Row.eraseDups_of_nodup distinct]

theorem rejects_insert_iff {column : Column} (conforms : row.Conforms columns) :
    (Row.insert ranking.scoreColumn (Json.ofFloat score) row).Rejects (ranking.scoredColumns columns) column ↔
      columns.find? (·.name = ranking.scoreColumn) = some column ∧ column.type.accepts (Json.ofFloat score) = false := by
  rw [Row.Rejects, scoredColumns_eq_enlist, find?_enlist]
  by_cases same : ranking.scoreColumn = column.name
  · rw [if_pos same, ← same, Row.value?_insert_self, Option.getD_some]
    cases columns.find? (·.name = ranking.scoreColumn) with
    | some first => rw [Option.some_or]
    | none =>
        rw [Option.none_or]
        constructor
        · rintro ⟨first, refused⟩
          cases first
          cases (ColumnType.accepts_ofFloat score (.inr rfl)).symm.trans refused
        · rintro ⟨first, -⟩
          cases first
  · rw [if_neg same, Option.or_none, Row.value?_insert_of_ne _ _ (Ne.symm same)]
    constructor
    · rintro ⟨first, refused⟩
      obtain ⟨value, held, accepted⟩ := conforms.typed column (List.mem_of_find?_eq_some first)
      rw [held, Option.getD_some, accepted] at refused
      cases refused
    · rintro ⟨first, -⟩
      exact absurd (by simpa using List.find?_some first) (Ne.symm same)

end Schema

/-! The table of a ranking. -/

section Table

variable {name : String} {given table : Table}

theorem ranks_of_rank (distinct : (given.columns.map Column.name).Nodup) (conforming : given.Conforming)
    (made : ranking.rank name given scores = .ok table) :
    scores.length = given.size ∧ ∃ order shown, table = ⟨name, ranking.scoredColumns given.columns, shown⟩ ∧
      ranking.Ranks given.rows scores order shown := by
  rw [rank] at made
  split at made
  · rename_i counted
    obtain ⟨order, ranks⟩ := ranking.exists_ranks counted
    refine ⟨counted, order, _, ?_, ranks⟩
    rw [Table.ofRows_eq_pick (mapError_ok_iff.mp made)]
    congr 1
    refine (List.map_congr_left fun row member => ?_).trans (List.map_id _)
    obtain ⟨candidate, inside, score, -, rfl⟩ := exists_candidate ranks.scored row member
    exact pick_insert distinct (conforming candidate inside) _
  · cases made

theorem not_outscores_self (score : Float) : ¬ Outscores score score := by
  rintro ⟨finite, less⟩
  have isNumber := Double.isNumber_of_isFinite finite
  exact lt_irrefl _ ((Double.lt_iff_rank_lt isNumber isNumber).mp (less finite))

theorem Ranks.top {order : List Nat} {rest : List Row} (ranks : ranking.Ranks candidates scores order (row :: rest)) :
    ∃ candidate ∈ candidates, ∃ score ∈ scores, (∀ other ∈ scores, ¬ Outscores other score) ∧
      Row.insert ranking.scoreColumn (Json.ofFloat score) candidate = row := by
  obtain ⟨position, positions, first, -, stays⟩ := List.forall₂_cons_right_iff.mp ranks.scored
  obtain ⟨candidate, score, found, here, same⟩ := first
  refine ⟨candidate, List.mem_of_getElem? found, score, List.mem_of_getElem? here, fun other member => ?_, same⟩
  obtain ⟨index, there⟩ := List.mem_iff_getElem?.mp member
  have sorted : (ranking.kept order).Pairwise (Ahead scores) := ranks.descending.sublist (ranking.kept_sublist order)
  rw [stays] at sorted
  by_cases listed : index ∈ ranking.kept order
  · rw [stays] at listed
    rcases List.mem_cons.mp listed with rfl | later
    · cases here.symm.trans there
      exact not_outscores_self score
    · exact ((List.pairwise_cons.mp sorted).1 index later score other here there).1
  · have leads : position ∈ ranking.kept order := stays ▸ List.mem_cons_self
    exact ranks.best position leads index listed score other here there

def TakesScores (ranking : Ranking) (given : Table) : Prop :=
  ∀ column, given.column? ranking.scoreColumn = some column → column.type = .float ∨ column.type = .double

theorem rejects_scored_iff {positions : List Nat} {rows : List Row} {column : Column} (conforming : given.Conforming)
    (finite : ∀ score ∈ scores, score.isFinite = true)
    (scored : List.Forall₂ (ranking.Scored given.rows scores) positions rows) :
    ∀ row ∈ rows, row.Rejects (ranking.scoredColumns given.columns) column ↔
      given.column? ranking.scoreColumn = some column ∧ ¬ (column.type = .float ∨ column.type = .double) := by
  intro row member
  obtain ⟨candidate, inside, score, own, rfl⟩ := exists_candidate scored row member
  rw [rejects_insert_iff (conforming candidate inside), ← ColumnType.accepts_ofFloat_iff (finite score own),
    Bool.not_eq_true]
  rfl

theorem rank_ok_iff (conforming : given.Conforming) (counted : scores.length = given.size)
    (finite : ∀ score ∈ scores, score.isFinite = true) :
    (∃ table, ranking.rank name given scores = .ok table) ↔
      ranking.limit = some 0 ∨ given.rows = [] ∨ ranking.TakesScores given := by
  obtain ⟨order, ranks⟩ := ranking.exists_ranks counted
  have rejects {column : Column} := @rejects_scored_iff _ _ _ _ _ column conforming finite ranks.scored
  have nothing : cut ranking.limit (Row.orderBy ranking.scoreColumn .descending (ranking.scoredRows given.rows scores)) = [] ↔
      ranking.limit = some 0 ∨ given.rows = [] := by
    rw [← List.length_eq_zero_iff, ← ranks.scored.length_eq, List.length_eq_zero_iff, kept_eq_nil_iff,
      ← List.length_eq_zero_iff, ranks.all.length_eq, List.length_range, List.length_eq_zero_iff]
  rw [rank, if_pos counted, ← or_assoc, ← nothing]
  simp only [mapError_ok_iff, Table.ofRows_ok_iff, Row.fits_iff_not_rejects]
  generalize cut _ _ = shown at rejects ⊢
  constructor
  · intro passes
    cases shown with
    | nil => exact .inl rfl
    | cons row rows =>
        refine .inr fun column declared => ?_
        have passed := passes row List.mem_cons_self column
        rw [rejects row List.mem_cons_self] at passed
        by_contra refuses
        exact passed ⟨declared, refuses⟩
  · intro settled row member column
    rw [rejects row member]
    rcases settled with rfl | takes
    · cases member
    · rintro ⟨declared, refuses⟩
      exact refuses (takes column declared)

theorem rank_error (conforming : given.Conforming) (counted : scores.length = given.size)
    (finite : ∀ score ∈ scores, score.isFinite = true) {failure : Failure}
    (failed : ranking.rank name given scores = .error failure) :
    ∃ column score, given.column? ranking.scoreColumn = some column ∧ score ∈ scores ∧
      (∀ other ∈ scores, ¬ Outscores other score) ∧
      failure = .schema name (.typeMismatch name 0 ranking.scoreColumn column.type (Json.ofFloat score).describe) := by
  obtain ⟨order, ranks⟩ := ranking.exists_ranks counted
  rw [rank, if_pos counted] at failed
  obtain ⟨error, refused, rfl⟩ := mapError_error_iff.mp failed
  obtain ⟨before, row, after, ahead, column, behind, rows, -, rejects, passes, -, rfl⟩ :=
    Table.ofRows_error_iff.mp refused
  have rejects_iff := @rejects_scored_iff _ _ _ _ _ column conforming finite ranks.scored
  rw [rows] at rejects_iff
  obtain ⟨declared, refuses⟩ := (rejects_iff row (by simp)).mp rejects
  have named : column.name = ranking.scoreColumn := by simpa using List.find?_some declared
  cases before with
  | cons first others =>
      have member : first ∈ first :: others := List.mem_cons_self
      exact absurd ((rejects_iff first (List.mem_append_left _ member)).mpr ⟨declared, refuses⟩)
        (passes first member column)
  | nil =>
      rw [rows, List.nil_append] at ranks
      obtain ⟨candidate, -, score, own, best, rfl⟩ := ranks.top
      refine ⟨column, score, declared, own, best, ?_⟩
      rw [named, Row.value?_insert_self]
      rfl

end Table

section Plan

variable {answers : Answers} {perform : Errand → Outcome} {request : Request} {name : String} {given : Table}
  {outputs : List Table}

theorem evaluate_rankPlan (some : given.rows ≠ [])
    (answered : answers (.scores ranking.model request.subject ranking.features given.rows) = .ok scores) :
    (Experiment.rankPlan ranking name request given).evaluate answers perform =
      (ranking.rank name given scores).map ([·]) := by
  rw [Experiment.rankPlan, Table.isEmpty, if_neg (by simpa using some), Plan.evaluate, answered]
  dsimp only
  cases ranking.rank name given scores <;> rfl

theorem evaluate_rankPlan_empty (none : given.rows = []) :
    (Experiment.rankPlan ranking name request given).evaluate answers perform = .ok [given] := by
  rw [Experiment.rankPlan, Table.isEmpty, none]
  rfl

/-- What a ranking makes of candidates that an experiment has stacked: each with the score that the model has
given for its position, the best of them in order. Another number of scores is a failure of the scoring. -/
theorem rankPlan_shows_best (stacked : Table.stack name outputs = .ok given) (some : given.rows ≠ [])
    (answered : answers (.scores ranking.model request.subject ranking.features given.rows) = .ok scores) :
    let outcome := (Experiment.rankPlan ranking name request given).evaluate answers perform
    (∀ tables, outcome = .ok tables → scores.length = given.size ∧
      ∃ order shown, ranking.Ranks given.rows scores order shown ∧
        tables = [⟨name, if given.columns.any (·.name = ranking.scoreColumn) then given.columns
          else given.columns ++ [⟨ranking.scoreColumn, .double⟩], shown⟩]) ∧
      (scores.length ≠ given.size →
        outcome = .error (.scoring ranking.model (.miscounted scores.length given.size))) := by
  obtain ⟨-, declared, conforming⟩ := Table.ofRows_made stacked
  have distinct : (given.columns.map Column.name).Nodup := declared ▸ nodup_unionColumns _
  rw [evaluate_rankPlan some answered]
  refine ⟨fun tables made => ?_, fun miscounted => ?_⟩
  · cases ranked : ranking.rank name given scores with
    | error failure =>
        rw [ranked] at made
        cases made
    | ok table =>
        rw [ranked] at made
        cases made
        obtain ⟨counted, order, shown, rfl, ranks⟩ := ranks_of_rank distinct conforming ranked
        exact ⟨counted, order, shown, ranks, rfl⟩
  · rw [rank, if_neg miscounted]
    rfl

theorem songs_ranked :
    let ranking : Ranking := ⟨"taste", ["plays"], "score", some 2⟩
    let played : Table := ⟨"played", [⟨"song", .str⟩], [[("song", .string "a")], [("song", .string "b")]]⟩
    let fresh : Table := ⟨"fresh", [⟨"song", .str⟩], [[("song", .string "c")]]⟩
    let songs : Table := ⟨"songs", [⟨"song", .str⟩],
      [[("song", .string "a")], [("song", .string "b")], [("song", .string "c")]]⟩
    let answers : Answers := fun
      | .rows _ _ _ => .ok []
      | .scores _ _ _ _ => .ok [0.25, 0.25, 0.75]
    let perform : Errand → Outcome := fun errand => .error (.taskNotFound errand.task)
    let outcome := (Experiment.rankPlan ranking "songs" .empty songs).evaluate answers perform
    let best : Table := ⟨"songs", [⟨"song", .str⟩, ⟨"score", .double⟩],
      [[("song", .string "c"), ("score", .number (.double 0.75))], [("song", .string "a"), ("score", .number (.double 0.25))]]⟩
    Table.stack "songs" [played, fresh] = .ok songs ∧ outcome = .ok [best] ∧
      ∃ order, ranking.Ranks songs.rows [0.25, 0.25, 0.75] order best.rows := by
  intro ranking played fresh songs answers perform outcome best
  have stacked : Table.stack "songs" [played, fresh] = .ok songs := rfl
  have some : songs.rows ≠ [] := nofun
  let first : Row := [("song", .string "a"), ("score", .number (.double 0.25))]
  let second : Row := [("song", .string "b"), ("score", .number (.double 0.25))]
  let third : Row := [("song", .string "c"), ("score", .number (.double 0.75))]
  have ordered : Row.orderBy "score" .descending [first, second, third] = [third, first, second] := by
    have tied : Row.precedes "score" .descending first second = true := by rfl
    have behind : Row.precedes "score" .descending first third = false := by rfl
    simp [Row.orderBy, List.mergeSort, tied, behind]
  have shown : outcome = .ok [best] := by
    refine (evaluate_rankPlan some rfl).trans ?_
    change Except.map _ (Except.mapError _ (Table.ofRows _ _
      ((Row.orderBy "score" .descending [first, second, third]).take 2))) = _
    rw [ordered]
    rfl
  obtain ⟨-, order, rows, ranks, same⟩ := (rankPlan_shows_best stacked some rfl).1 [best] shown
  have listed : best.rows = rows := congrArg Table.rows (List.cons.inj same).1
  exact ⟨stacked, shown, order, listed ▸ ranks⟩

/-- Finite scores, one for each candidate, are refused only where the candidates declare the score column with a
type that is not one of doubles, and then for the best of them. -/
theorem rankPlan_settles (conforming : given.Conforming) (counted : scores.length = given.size)
    (finite : ∀ score ∈ scores, score.isFinite = true)
    (answered : answers (.scores ranking.model request.subject ranking.features given.rows) = .ok scores) :
    let outcome := (Experiment.rankPlan ranking name request given).evaluate answers perform
    ((∃ tables, outcome = .ok tables) ↔
      ranking.limit = some 0 ∨ given.rows = [] ∨ ranking.TakesScores given) ∧
      ∀ failure, outcome = .error failure → ∃ column score, given.column? ranking.scoreColumn = some column ∧
        score ∈ scores ∧ (∀ other ∈ scores, ¬ Outscores other score) ∧
        failure = .schema name (.typeMismatch name 0 ranking.scoreColumn column.type (Json.ofFloat score).describe) := by
  by_cases none : given.rows = []
  · rw [evaluate_rankPlan_empty none]
    exact ⟨⟨fun _ => .inr (.inl none), fun _ => ⟨_, rfl⟩⟩, nofun⟩
  · rw [evaluate_rankPlan none answered, ← rank_ok_iff conforming counted finite]
    cases ranked : ranking.rank name given scores with
    | ok table => exact ⟨⟨fun _ => ⟨table, rfl⟩, fun _ => ⟨_, rfl⟩⟩, nofun⟩
    | error failure =>
        refine ⟨⟨nofun, nofun⟩, fun own same => ?_⟩
        cases same
        exact rank_error conforming counted finite ranked

theorem old_scores_replaced :
    let ranking : Ranking := ⟨"taste", [], "score", none⟩
    let songs : Table := ⟨"songs", [⟨"song", .str⟩, ⟨"score", .float⟩], [[("song", .string "a"), ("score", .null)]]⟩
    let answers : Answers := fun
      | .rows _ _ _ => .ok []
      | .scores _ _ _ _ => .ok [0.5]
    let perform : Errand → Outcome := fun errand => .error (.taskNotFound errand.task)
    songs.Conforming ∧ (∀ score ∈ [(0.5 : Float)], score.isFinite = true) ∧
      ∃ tables, (Experiment.rankPlan ranking "songs" .empty songs).evaluate answers perform = .ok tables := by
  intro ranking songs answers perform
  have conforming : songs.Conforming := Table.conforming_of_taken rfl
  have finite : ∀ score ∈ [(0.5 : Float)], score.isFinite = true := List.forall_mem_singleton.mpr rfl
  have takes : ranking.TakesScores songs := by
    intro column declared
    cases (declared : some (⟨"score", .float⟩ : Column) = some column)
    exact .inl rfl
  exact ⟨conforming, finite, (rankPlan_settles conforming rfl finite rfl).1.mpr (.inr (.inr takes))⟩

theorem whole_score_column_refuses :
    ¬ ∀ (ranking : Ranking) (name : String) (request : Request) (given : Table) (scores : List Float) (answers : Answers)
        (perform : Errand → Outcome), given.Conforming → scores.length = given.size →
        (∀ score ∈ scores, score.isFinite = true) →
        answers (.scores ranking.model request.subject ranking.features given.rows) = .ok scores →
        ∃ tables, (Experiment.rankPlan ranking name request given).evaluate answers perform = .ok tables := by
  intro ranks
  let songs : Table := ⟨"songs", [⟨"song", .str⟩, ⟨"score", .int64⟩],
    [[("song", .string "a"), ("score", .number (.int 1))]]⟩
  let answers : Answers := fun
    | .rows _ _ _ => .ok []
    | .scores _ _ _ _ => .ok [0.5]
  let perform : Errand → Outcome := fun errand => .error (.taskNotFound errand.task)
  have conforming : songs.Conforming := Table.conforming_of_taken rfl
  obtain ⟨tables, made⟩ := ranks ⟨"taste", [], "score", none⟩ "songs" .empty songs [0.5] answers perform conforming rfl
    (List.forall_mem_singleton.mpr rfl) rfl
  have alone : Row.orderBy "score" .descending [[("song", .string "a"), ("score", .number (.double 0.5))]] =
      [[("song", .string "a"), ("score", .number (.double 0.5))]] := List.mergeSort_singleton _
  rw [evaluate_rankPlan (List.cons_ne_nil _ _) rfl] at made
  change Except.map _ (Except.mapError _ (Table.ofRows "songs" songs.columns (Row.orderBy "score" .descending
    [[("song", .string "a"), ("score", .number (.double 0.5))]]))) = _ at made
  rw [alone] at made
  cases made

end Plan

end Ranking

end Curator
