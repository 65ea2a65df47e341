import Curator.Proofs.Engine.Backing
import Curator.Proofs.Operation.Refinement
/-!
Data that comes with a call is as good as data from a source. An invocation to which the caller
supplies tables is answered like one without them, over a registry in which the sources are backed by
somebody who has the very rows and returns them at once.
-/

set_option autoImplicit false

namespace Curator

def Row.without (names : List String) (params : Row) : Row := params.filter fun member => member.1 ∉ names

theorem Row.value?_without (names : List String) (params : Row) (name : String) :
    (params.without names).value? name = if name ∈ names then none else params.value? name := by
  induction params with
  | nil => simp [without, value?]
  | cons member rest ih =>
      obtain ⟨other, value⟩ := member
      by_cases removed : other ∈ names
      · have skipped : without names ((other, value) :: rest) = without names rest := by simp [without, removed]
        rw [skipped, ih]
        by_cases gone : name ∈ names
        · rw [if_pos gone, if_pos gone]
        · have apart : (name == other) = false := by
            simpa using fun same : name = other => gone (same ▸ removed)
          simp [gone, value?, List.lookup_cons, apart]
      · have kept : without names ((other, value) :: rest) = (other, value) :: without names rest := by
          simp [without, removed]
        rw [kept]
        by_cases same : name = other
        · simp [same, removed, value?]
        · have apart : (name == other) = false := by simpa using same
          simpa [value?, List.lookup_cons, apart] using ih

section Request

variable {params : Row} {names : List String}
  (lists : ∀ name ∈ names, ∃ records, Row.value? params name = some (.array records))
include lists

theorem Row.key?_without (name : String) :
    ((params.without names).value? name).bind Json.key? = (params.value? name).bind Json.key? := by
  rw [Row.value?_without]
  by_cases member : name ∈ names
  · obtain ⟨records, present⟩ := lists name member
    rw [if_pos member, present]
    rfl
  · rw [if_neg member]

theorem Request.subject_without :
    (Request.ofParams (params.without names)).subject = (Request.ofParams params).subject :=
  Row.key?_without lists "id"

theorem Request.text?_without (parameter : String) :
    (Request.ofParams (params.without names)).text? parameter = (Request.ofParams params).text? parameter := by
  rw [Request.text?, Request.text?, Request.subject_without lists]
  by_cases own : parameter = "id"
  · rw [if_pos own, if_pos own]
  · rw [if_neg own, if_neg own]
    exact Row.key?_without lists parameter

theorem Request.splitKey_without :
    (Request.ofParams (params.without names)).splitKey = (Request.ofParams params).splitKey := by
  rw [Request.splitKey, Request.splitKey, Request.subject_without lists, Request.text?_without lists]

end Request

def Row.records (params : Row) (source : String) : List Row :=
  match params.value? source with
  | some (.array records) => records.filterMap Json.object?
  | _ => []

def Graph.Brings (graph : Graph) (params : Row) (name : String) : Prop :=
  ∃ definition records table, graph.lookup name = some (.source definition) ∧ definition.filter = none ∧
    Row.value? params name = some (.array records) ∧
    Table.ofRecords name definition.columns records = .ok table

namespace Registry

variable {registry other : Registry} {task : String} {params : Row} {names : List String}

theorem given_of_brings (task : String) {name : String} (brings : registry.graph.Brings params name) :
    ∃ definition table, registry.graph.lookup name = some (.source definition) ∧ definition.filter = none ∧
      registry.supplied task (.ofParams params) name = .ok (some table) ∧
      Table.ofRows name definition.columns (params.records name) = .ok table := by
  obtain ⟨definition, records, table, found, unfiltered, present, made⟩ := brings
  have columns : registry.declared name = definition.columns := by
    rw [declared, found]
    rfl
  obtain ⟨rows, listed, typed⟩ := bind_ok_iff.mp made
  cases Table.objects_ok_iff.mp listed
  have own : params.records name = rows := by
    simp only [Row.records, present, List.filterMap_map]
    exact List.filterMap_some
  refine ⟨definition, table, found, unfiltered, ?_, own ▸ typed⟩
  exact supplied_ok_iff.mpr (.inl ⟨_, table, present, columns ▸ made, rfl⟩)

def brought (registry : Registry) (task : String) (params : Row) (name : String) : Table :=
  (registry.given task (.ofParams params) name).getD default

theorem backs_of_build {graph : Graph} {offer : Offer} (sound : graph.Sound)
    (unreplaced : offer.replacements = []) (built : build graph offer = .ok registry) (built' : build graph (offer.backing names) = .ok other)
    (brings : ∀ name ∈ names, graph.Brings params name) :
    registry.Backs other names params.records (registry.brought task params) where
  graph := (graph_of_build built').trans (graph_of_build built).symm
  same := by
    intro name apart
    obtain ⟨missing, provided⟩ := worker?_of_build sound built name
    obtain ⟨missing', provided'⟩ := worker?_of_build sound built' name
    cases found : graph.lookup name with
    | none => rw [missing found, missing' found]
    | some target =>
        have apart' : target.name ∉ names := Task.name_of_find? found ▸ apart
        have unchanged := (worker_backing apart').trans (provided target found)
        have workers := (provided' target found).symm.trans unchanged
        injection workers
  backed := by
    intro name member
    have same : registry.graph = graph := graph_of_build built
    subst same
    obtain ⟨definition, table, found, unfiltered, supplied, made⟩ := given_of_brings task (brings name member)
    have named : definition.name = name := Task.name_of_find? found
    have provided := (worker?_of_build sound built' name).2 _ found
    rw [worker_backed unreplaced (named ▸ member)] at provided
    injection provided with carried
    have own : registry.brought task params name = table := by
      rw [brought, given_of_supplied supplied]
      rfl
    exact ⟨definition, found, carried.symm, unfiltered, own ▸ made⟩

section

variable {rows : String → List Row} {tables : String → Table} (backs : registry.Backs other names rows tables)
include backs

theorem Backs.supplied_apart {name : String} (apart : name ∉ names) :
    other.supplied task (.ofParams (params.without names)) name =
      registry.supplied task (.ofParams params) name := by
  have present : (Request.ofParams (params.without names)).param? name =
      (Request.ofParams params).param? name := (Row.value?_without names params name).trans (if_neg apart)
  have known : other.has name = registry.has name := congrArg Option.isSome (backs.same name apart)
  rw [supplied, supplied, present, known, backs.graph]

theorem Backs.supplied_without {name : String} (member : name ∈ names) :
    other.supplied task (.ofParams (params.without names)) name = .ok none := by
  obtain ⟨definition, -, carried, -⟩ := backs.backed name member
  have absent : (Request.ofParams (params.without names)).param? name = none :=
    (Row.value?_without names params name).trans (if_pos member)
  have known : other.has name = true := congrArg Option.isSome carried
  exact supplied_ok_iff.mpr (.inr ⟨absent, known, rfl⟩)

theorem Backs.suppliedAll_without (brings : ∀ name ∈ names, registry.graph.Brings params name)
    (sources : List String) :
    other.suppliedAll task (.ofParams (params.without names)) sources =
      (registry.suppliedAll task (.ofParams params) sources).map (·.filter (·.name ∉ names)) := by
  induction sources with
  | nil => rfl
  | cons source rest ih =>
      rw [suppliedAll, suppliedAll, ih]
      by_cases member : source ∈ names
      · obtain ⟨definition, table, -, -, here, -⟩ := given_of_brings task (brings source member)
        have named : table.name = source := name_of_given (given_of_supplied here)
        rw [backs.supplied_without member, here]
        cases registry.suppliedAll task (.ofParams params) rest with
        | error failure => rfl
        | ok others => simp [Except.map, bind, Except.bind, pure, Except.pure, named, member]
      · rw [backs.supplied_apart member]
        cases here : registry.supplied task (.ofParams params) source with
        | error failure => rfl
        | ok result =>
            cases registry.suppliedAll task (.ofParams params) rest with
            | error failure => rfl
            | ok others =>
                cases result with
                | none => rfl
                | some table =>
                    have named : table.name = source := name_of_given (given_of_supplied here)
                    simp [Except.map, bind, Except.bind, pure, Except.pure, named, member]

end

end Registry

theorem Machine.backed_of_suppliedAll {registry : Registry} {task : String} {params : Row}
    {names sources : List String} (brings : ∀ name ∈ names, registry.graph.Brings params name) (listed : ∀ name ∈ names, name ∈ sources)
    {seeds : List Table} (passed : registry.suppliedAll task (.ofParams params) sources = .ok seeds)
    (machine : Machine) :
    (machine.withMemo (Memo.seedAll [] seeds)).Backed names (registry.brought task params)
      (machine.withMemo (Memo.seedAll [] (seeds.filter (·.name ∉ names)))) where
  clock := rfl
  turns := rfl
  calls _ _ := rfl
  slots name apart := by
    have unfiltered : (seeds.filter (·.name ∉ names)).find? (·.name = name) = seeds.find? (·.name = name) := by
      rw [List.find?_filter]
      congr 1
      funext table
      by_cases same : table.name = name
      · simp [same, apart]
      · simp [same]
    have slots (tables : List Table) := Memo.slot?_of_seeds tables name
    exact (slots _).trans ((congrArg _ unfiltered).trans (slots seeds).symm)
  supplied name member := by
    obtain ⟨definition, table, -, -, here, -⟩ := Registry.given_of_brings task (brings name member)
    have given := Registry.given_of_supplied here
    have slot := Registry.slot?_of_suppliedAll passed name
    rw [if_pos (listed name member), given] at slot
    rw [Registry.brought, given]
    exact slot
  produced name member := by
    have gone : (seeds.filter (·.name ∉ names)).find? (·.name = name) = none := by
      rw [List.find?_eq_none]
      intro table inside same
      have apart := (List.mem_filter.mp inside).2
      simp only [decide_eq_true_eq] at apart same
      exact apart (same ▸ member)
    exact .inl ((Memo.slot?_of_seeds _ name).trans (congrArg _ gone))

theorem Host.operate_backed {host : Host} (staffed : host.registry.Staffed) {registry : Registry}
    {task : String} {params : Row} {names : List String}
    (backs : host.registry.Backs registry names params.records (host.registry.brought task params))
    (listed : ∀ name ∈ names, name ∈ (host.registry.graph.reliesOn? task).getD [])
    (brings : ∀ name ∈ names, host.registry.graph.Brings params name) (machine : Machine) :
    ((host.backedBy registry names params.records).operate (.invoke task (params.without names)) machine).1 =
      (host.operate (.invoke task params) machine).1 := by
  -- The task is none of the sources, since none of them relies on anything.
  have apart : task ∉ names := by
    intro member
    obtain ⟨owner, found, isSource⟩ := backs.isSource member
    obtain ⟨leaves, relied, leaf⟩ := Graph.mem_reliesOn_iff staffed.sound found
    have own := listed task member
    rw [relied] at own
    exact not_reaches_of_source ⟨owner, found, isSource⟩ ((leaf task).mp own).2
  have lists (name : String) (member : name ∈ names) :
      ∃ records, Row.value? params name = some (.array records) := by
    obtain ⟨-, records, -, -, -, present, -⟩ := brings name member
    exact ⟨records, present⟩
  have has : registry.has task = host.registry.has task := congrArg Option.isSome (backs.same task apart)
  have same : (host.backedBy registry names params.records).registry = registry := rfl
  rw [host.operate_invoke, Host.operate_invoke, same, has, backs.graph, backs.suppliedAll_without brings]
  split
  · cases passed : host.registry.suppliedAll task (.ofParams params)
        ((host.registry.graph.reliesOn? task).getD []) with
    | error failure => rfl
    | ok seeds =>
        have lockstep := backs.lockstep staffed (Request.subject_without lists) (Request.splitKey_without lists)
          (Request.text?_without lists)
        have keeps : (Job.invocation task (.ofParams params) seeds).plan.Keeps (.fetching names) :=
          Job.invocation_keeps (fun member => absurd member apart) (fun _ => trivial) _ seeds
        exact (lockstep.perform 1 keeps (Machine.backed_of_suppliedAll brings listed passed machine)).1
  · rfl

/-- For every accepted graph, every registry in which nothing is replaced, every task, and any of the
sources that the task relies on, provided that they have no filter and take the records that come
with the call. Without these records the invocation is answered as with them, if the sources are
backed by somebody who returns the same records at once; whoever else is asked answers as before. -/
theorem Host.invoke_backed {flow : Flow} {graph : Graph} {offer : Offer} {host : Host}
    (accepted : Graph.ofFlow flow = .ok graph) (unreplaced : offer.replacements = [])
    (built : Registry.build graph offer = .ok host.registry) {task : String} {params : Row}
    {names : List String} (listed : ∀ name ∈ names, name ∈ (graph.reliesOn? task).getD [])
    (brings : ∀ name ∈ names, graph.Brings params name) :
    ∃ registry, Registry.build graph (offer.backing names) = .ok registry ∧ ∀ machine,
      ((host.backedBy registry names params.records).answer (.invoke task (params.without names)) machine).1 =
        (host.answer (.invoke task params) machine).1 := by
  have sound : graph.Sound := Graph.sound_of_ofFlow accepted
  have sources (name : String) (member : name ∈ names) : IsSource graph.tasks name := by
    obtain ⟨definition, -, -, found, -⟩ := brings name member
    exact ⟨_, found, rfl⟩
  obtain ⟨registry, built'⟩ := Registry.build_backing sound unreplaced built sources
  refine ⟨registry, built', fun machine => ?_⟩
  have staffed := Registry.staffed_of_build sound built
  have backs : host.registry.Backs registry names params.records (host.registry.brought task params) :=
    Registry.backs_of_build sound unreplaced built built' brings
  have same : host.registry.graph = graph := Registry.graph_of_build built
  subst same
  have outcomes := Host.operate_backed staffed backs listed brings machine
  exact congrArg (Operation.reply (.invoke task params)) outcomes

theorem shared_users_backed :
    (sharedHost.answer (.invoke "candidates" sharedParams) .start).1.isSuccess = true ∧
      ∃ registry, Registry.build sharedGraph ⟨["users", "items"], [], []⟩ = .ok registry ∧
        sharedParams.records "users" = [[("id", .string "u1")]] ∧
        ((sharedHost.backedBy registry ["users"] sharedParams.records).answer (.invoke "candidates" []) .start).1 =
          (sharedHost.answer (.invoke "candidates" sharedParams) .start).1 := by
  have listed (name : String) (member : name ∈ ["users"]) :
      name ∈ (sharedGraph.reliesOn? "candidates").getD [] := by
    cases List.mem_singleton.mp member
    decide
  have brings (name : String) (member : name ∈ ["users"]) : sharedGraph.Brings sharedParams name := by
    cases List.mem_singleton.mp member
    exact ⟨⟨"users", [⟨"id", .str⟩], none, none⟩, _, _, rfl, rfl, rfl, rfl⟩
  obtain ⟨registry, built, answers⟩ := sharedHost.invoke_backed shared_flow_accepted rfl shared_registry_built
    listed brings
  exact ⟨by decide +kernel, registry, built, rfl, answers .start⟩

end Curator
