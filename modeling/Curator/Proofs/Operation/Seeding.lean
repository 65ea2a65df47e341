import Curator.Proofs.Engine.Step
import Curator.Proofs.Table.Conform
/-!
What a caller supplies: for each source that a task relies on, either the table of the records under
its name, or nothing, if there is somebody else to answer for the source. The first source for which
neither can be had is refused, and otherwise the tables go into a fresh memo, one after the other.
-/

set_option autoImplicit false

namespace Curator

namespace Memo

theorem slot?_seedAll (memo : Memo) (tables : List Table) (name : String) :
    (memo.seedAll tables).slot? name =
      (memo.slot? name).or ((tables.find? (·.name = name)).map .filled) := by
  induction tables generalizing memo with
  | nil => simp [seedAll]
  | cons first rest ih =>
      have step : memo.seedAll (first :: rest) = (memo.seed first.name first).1.seedAll rest := rfl
      rw [step, ih, slot?_seed]
      by_cases same : first.name = name
      · cases present : memo.slot? name <;> simp [same, present]
      · simp [same, Ne.symm same]

theorem slot?_of_seeds (tables : List Table) (name : String) :
    (Memo.seedAll [] tables).slot? name = (tables.find? (·.name = name)).map .filled :=
  slot?_seedAll [] tables name

theorem mem_of_seedAll {tables : List Table} {name : String} {table : Table}
    (filled : (Memo.seedAll [] tables).slot? name = some (.filled table)) :
    table ∈ tables ∧ table.name = name := by
  rw [slot?_of_seeds, Option.map_eq_some_iff] at filled
  obtain ⟨found, here, same⟩ := filled
  cases same
  exact ⟨List.mem_of_find?_eq_some here, by simpa using List.find?_some here⟩

theorem filled_of_seedAll {tables : List Table} {name : String} {slot : Slot}
    (found : (Memo.seedAll [] tables).slot? name = some slot) : ∃ table, slot = .filled table := by
  rw [slot?_of_seeds, Option.map_eq_some_iff] at found
  obtain ⟨table, -, same⟩ := found
  exact ⟨table, same.symm⟩

end Memo

namespace Registry

def declared (registry : Registry) (source : String) : List Column :=
  ((registry.graph.lookup source).map Task.columns).getD []

variable {registry : Registry} {task source : String} {request : Request}

theorem supplied_ok_iff {result : Option Table} :
    registry.supplied task request source = .ok result ↔
      (∃ records table, request.param? source = some (.array records) ∧
        Table.ofRecords source (registry.declared source) records = .ok table ∧ result = some table) ∨
      request.param? source = none ∧ registry.has source = true ∧ result = none := by
  rw [supplied, declared]
  cases request.param? source with
  | none => by_cases known : registry.has source = true <;> simp [known, eq_comm]
  | some value =>
      cases value with
      | array records =>
          constructor
          · intro passed
            dsimp only at passed
            split at passed
            · rename_i table made
              cases passed
              exact .inl ⟨records, table, rfl, made, rfl⟩
            · cases passed
          · rintro (⟨_, table, ⟨⟩, made, rfl⟩ | ⟨⟨⟩, -⟩)
            simp only [made]
      | null | bool | number | string | object => simp

def given (registry : Registry) (task : String) (request : Request) (source : String) : Option Table :=
  match registry.supplied task request source with
  | .ok result => result
  | .error _ => none

theorem given_of_supplied {result : Option Table}
    (passed : registry.supplied task request source = .ok result) :
    registry.given task request source = result := by
  rw [given, passed]

theorem given_eq_some_iff {table : Table} :
    registry.given task request source = some table ↔
      ∃ records, request.param? source = some (.array records) ∧
        Table.ofRecords source (registry.declared source) records = .ok table := by
  have passes : registry.given task request source = some table ↔
      registry.supplied task request source = .ok (some table) := by
    cases passed : registry.supplied task request source <;> simp [given, passed]
  simp [passes, supplied_ok_iff]

theorem suppliedAll_ok_iff {sources : List String} {seeds : List Table} :
    registry.suppliedAll task request sources = .ok seeds ↔
      (∀ source ∈ sources, ∃ result, registry.supplied task request source = .ok result) ∧
        seeds = sources.filterMap (registry.given task request) := by
  induction sources generalizing seeds with
  | nil => simp [suppliedAll, eq_comm]
  | cons source rest ih =>
      simp only [suppliedAll, bind_ok_iff, pure_ok_iff, ih, List.forall_mem_cons]
      constructor
      · rintro ⟨first, here, others, ⟨behind, rfl⟩, rfl⟩
        refine ⟨⟨⟨first, here⟩, behind⟩, ?_⟩
        rw [List.filterMap_cons, given_of_supplied here]
        cases first <;> rfl
      · rintro ⟨⟨⟨first, here⟩, behind⟩, rfl⟩
        refine ⟨first, here, _, ⟨behind, rfl⟩, ?_⟩
        rw [List.filterMap_cons, given_of_supplied here]
        cases first <;> rfl

theorem name_of_given {table : Table} (given : registry.given task request source = some table) :
    table.name = source := by
  obtain ⟨records, -, made⟩ := given_eq_some_iff.mp given
  exact (Table.ofRecords_made made).1

theorem find?_given (sources : List String) (name : String) :
    (sources.filterMap (registry.given task request)).find? (·.name = name) =
      if name ∈ sources then registry.given task request name else none := by
  induction sources with
  | nil => rfl
  | cons source rest ih =>
      cases here : registry.given task request source with
      | none =>
          rw [List.filterMap_cons_none here, ih]
          by_cases same : name = source
          · simp [same, here]
          · simp [same]
      | some table =>
          have named : table.name = source := name_of_given here
          rw [List.filterMap_cons_some here, List.find?_cons, ih, named]
          by_cases same : source = name
          · simp [same, ← here]
          · simp [same, Ne.symm same]

theorem slot?_of_suppliedAll {sources : List String} {seeds : List Table}
    (passed : registry.suppliedAll task request sources = .ok seeds) (name : String) :
    (Memo.seedAll [] seeds).slot? name =
      (if name ∈ sources then registry.given task request name else none).map .filled := by
  rw [Memo.slot?_of_seeds, (suppliedAll_ok_iff.mp passed).2, find?_given]

/-- What is wrong with what a request has for a source: it is no list; it is a list, but not all of it
are records that the columns of the source take; or there is nothing, and nobody else to answer. -/
inductive Lacks (registry : Registry) (params : Row) (source : String) : DataFault → Prop
  | notRecords {value : Json} (present : Row.value? params source = some value)
      (other : ∀ records, value ≠ .array records) : Lacks registry params source .notRecords
  | illTyped {records : List Json} {error : SchemaError}
      (present : Row.value? params source = some (.array records))
      (unfit : ¬ ∀ record ∈ records, ∃ row : Row, record = .object row ∧ row.Fits (registry.declared source))
      (first : Table.ofRecords source (registry.declared source) records = .error error) :
      Lacks registry params source (.illTyped error)
  | noSource (absent : Row.value? params source = none) (unknown : registry.has source = false) :
      Lacks registry params source .noSource

theorem supplied_error_iff {failure : Failure} :
    registry.supplied task request source = .error failure ↔
      ∃ fault, registry.Lacks request.params source fault ∧ failure = .missingData task source fault := by
  constructor
  · intro refused
    rw [supplied] at refused
    split at refused
    · rename_i records present
      dsimp only at refused
      split at refused
      · cases refused
      · rename_i error first
        cases refused
        refine ⟨_, .illTyped present (fun fit => ?_) first, rfl⟩
        have passes : ∃ table, Table.ofRecords source (registry.declared source) records = .ok table :=
          Table.ofRecords_ok_iff.mpr fit
        obtain ⟨table, made⟩ := passes
        cases first.symm.trans made
    · rename_i value other present
      cases refused
      exact ⟨_, .notRecords present other, rfl⟩
    · rename_i absent
      split at refused
      · cases refused
      · rename_i unknown
        cases refused
        exact ⟨_, .noSource absent (by simpa using unknown), rfl⟩
  · rintro ⟨fault, lacks, rfl⟩
    cases lacks with
    | @notRecords value present other =>
        have here : request.param? source = some value := present
        rw [supplied, here]
        cases value with
        | array records => exact absurd rfl (other records)
        | null | bool | number | string | object => rfl
    | @illTyped records error present unfit first =>
        have here : request.param? source = some (.array records) := present
        rw [declared] at first
        rw [supplied, here]
        simp only [first]
    | noSource absent unknown =>
        have here : request.param? source = none := absent
        rw [supplied, here]
        simp [unknown]

theorem not_lacks_of_supplied {result : Option Table}
    (passed : registry.supplied task request source = .ok result) (fault : DataFault) : ¬ registry.Lacks request.params source fault := by
  intro lacks
  have refused : registry.supplied task request source = .error (.missingData task source fault) :=
    supplied_error_iff.mpr ⟨fault, lacks, rfl⟩
  cases passed.symm.trans refused

theorem first_of_suppliedAll {sources : List String} {failure : Failure}
    (refused : registry.suppliedAll task request sources = .error failure) :
    ∃ before source behind fault, sources = before ++ source :: behind ∧
      (∀ earlier ∈ before, ∀ fault, ¬ registry.Lacks request.params earlier fault) ∧
      registry.Lacks request.params source fault ∧ failure = .missingData task source fault := by
  induction sources with
  | nil => cases refused
  | cons source rest ih =>
      rcases bind_error_iff.mp refused with here | ⟨result, passed, later⟩
      · obtain ⟨fault, lacks, same⟩ := supplied_error_iff.mp here
        exact ⟨[], source, rest, fault, rfl, fun _ none => (nomatch none), lacks, same⟩
      · rcases bind_error_iff.mp later with further | ⟨others, -, impossible⟩
        · obtain ⟨before, first, behind, fault, rfl, fine, lacks, same⟩ := ih further
          have fine' := List.forall_mem_cons.mpr ⟨not_lacks_of_supplied passed, fine⟩
          exact ⟨source :: before, first, behind, fault, rfl, fine', lacks, same⟩
        · cases impossible

theorem suppliedAll_error {sources : List String} {failure : Failure}
    (refused : registry.suppliedAll task request sources = .error failure) :
    ∃ source fault, failure = .missingData task source fault := by
  obtain ⟨-, source, -, fault, -, -, -, same⟩ := first_of_suppliedAll refused
  exact ⟨source, fault, same⟩

theorem not_lacks_of_suppliedAll {sources : List String} {seeds : List Table}
    (passed : registry.suppliedAll task request sources = .ok seeds) {source : String}
    (member : source ∈ sources) (fault : DataFault) : ¬ registry.Lacks request.params source fault := by
  obtain ⟨result, here⟩ := (suppliedAll_ok_iff.mp passed).1 source member
  exact not_lacks_of_supplied here fault

end Registry

end Curator
