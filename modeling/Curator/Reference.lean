import Curator.Operation
/-!
A reference for what operations answer. A task is evaluated anew whenever somebody asks for it: its inputs one after
the other, as they are declared, then the task itself. Nothing is kept, nothing is done side by side and nothing takes
time; only the tables that come with a request are taken as they are. The operations are written out here on their
own, with the checks that they make up front; only the work on rows and tables is the same as in the engine.
-/

set_option autoImplicit false

namespace Curator

structure Reference where
  registry : Registry
  answers : Answers
  request : Request
  supplied : String → Option Table

namespace Reference

abbrev Run := String → List Table → Outcome

def stage (run : Run) (input : List Table) : List String → Outcome
  | [] => return []
  | task :: rest => do
      let first ← run task input
      let others ← stage run input rest
      return first ++ others

def chain (run : Run) : List String → List Table → Outcome
  | [], input => return input
  | task :: rest, input => do
      let output ← run task input
      chain run rest output

def alone (run : Run) (task : String) : Except Failure Table := do
  match ← run task [] with
  | [table] => return table
  | tables => (Table.stack task tables).mapError (.schema task)

def value (reference : Reference) (run : Run) (task : String) : Except Failure Table :=
  match reference.supplied task with
  | some table => return table
  | none => alone run task

def values (reference : Reference) (run : Run) : List String → Except Failure (List Table)
  | [] => return []
  | task :: rest => do
      let first ← reference.value run task
      let others ← reference.values run rest
      return first :: others

def read (reference : Reference) (source : Source) (inline : Option (List Row)) (filter : Option (String × String)) :
    Outcome := do
  let rows ← match inline with
    | some rows => .ok (Source.select filter rows)
    | none =>
        match reference.answers (.rows source.name (source.columns.map Column.name) filter) with
        | .ok rows => .ok rows
        | .error causes => .error (.source source.name causes)
  let table ← (Table.ofRows source.name source.columns rows).mapError (.schema source.name)
  return [table]

def source (reference : Reference) (definition : Source) (inline : Option (List Row)) : Outcome :=
  match definition.filter with
  | none => reference.read definition inline none
  | some filter => match reference.request.text? filter.parameter with
      | none => return [Table.empty definition.name definition.columns]
      | some value => reference.read definition inline (some (filter.column, value))

def score (reference : Reference) (name : String) (ranking : Ranking) (outputs : List Table) : Outcome := do
  let candidates ← (Table.stack name outputs).mapError (.schema name)
  if candidates.isEmpty then return [candidates]
  let scores ←
    match reference.answers (.scores ranking.model reference.request.subject ranking.features candidates.rows) with
    | .ok scores => .ok scores
    | .error causes => .error (.scoring ranking.model (.backend causes))
  let ranked ← ranking.rank name candidates scores
  return [ranked]

def task (reference : Reference) (run : Run) (input : List Table) : Task → Outcome
  | .source definition => reference.source definition none
  | .feature definition => do
      let tables ← reference.values run definition.inputs
      return [← definition.assemble tables]
  | .transform definition => do
      let tables ← reference.values run (definition.features ++ definition.transforms)
      return [← definition.assemble tables]
  | .service definition => do
      let tables ← reference.values run definition.pulls
      return [← definition.assemble (input ++ tables)]
  | .experiment definition => do
      let outputs ← chain run definition.chain input
      match definition.ranking with
      | none => return outputs
      | some ranking => reference.score definition.name ranking outputs
  | .layer definition => do
      let experiment ← (definition.assign reference.request.splitKey).mapError .invalidSplit
      run experiment input
  | .scene definition => do
      let outputs ← chain run definition.chain input
      return [← definition.assemble outputs]

def work (reference : Reference) (run : Run) (input : List Table) : Worker → Outcome
  | .inline definition rows => reference.source definition (some rows)
  | .configured definition => reference.task run input definition
  | .replaced replacement => replacement.outcome input

-- Tasks are evaluated within each other down to a depth; no task of a sound graph needs more than there are tasks.
def within (reference : Reference) : Nat → Run
  | 0, _, _ => throw .unfinished
  | depth + 1, task, input => match reference.registry.worker? task with
      | none => throw (.taskNotFound task)
      | some worker => reference.work (reference.within depth) input worker

def run (reference : Reference) : Run := reference.within (reference.registry.graph.size + 1)

end Reference

namespace Operation

def require (registry : Registry) : List String → Except Failure Unit
  | [] => return ()
  | task :: rest => if registry.has task then require registry rest else throw (.taskNotFound task)

def bring (registry : Registry) (task : String) (params : Row) (source : String) : Except Failure (Option Table) :=
  match Row.value? params source with
  | none => if registry.has source then return none else throw (.missingData task source .noSource)
  | some (.array records) => do
      let columns := match registry.graph.lookup source with
        | some definition => definition.columns
        | none => []
      let table ← (Table.ofRecords source columns records).mapError fun error =>
        .missingData task source (.illTyped error)
      return some table
  | some _ => throw (.missingData task source .notRecords)

def taskNames (task : String) : Option Json → Except Failure (List String)
  | none | some .null => return []
  | some (.array names) => names.mapM fun
      | .string name => return name
      | _ => throw (.missingData task "preTasks" .notTaskNames)
  | some _ => throw (.missingData task "preTasks" .notTaskNames)

def stamp (subject : String) (row : Row) : Row :=
  match Row.value? row "id" with
  | none | some .null => Row.insert "id" (.string subject) row
  | some _ => row

def evaluate (registry : Registry) (answers : Answers) : Operation → Except Failure (List Row)
  | .invoke task params => do
      require registry [task]
      let brought ← ((registry.graph.reliesOn? task).getD []).mapM (bring registry task params)
      let supplied (name : String) : Option Table := (brought.filterMap id).find? (·.name = name)
      let outputs ← (Reference.mk registry answers (.ofParams params) supplied).run task []
      if outputs.isEmpty then throw (.executionFailed task .noOutput)
      return outputs.flatMap Table.rows
  | .recommend task params => do
      let preceding ← taskNames task (Row.value? params "preTasks")
      require registry (preceding ++ [task])
      let reference : Reference := ⟨registry, answers, .ofParams params, fun _ => none⟩
      let produced ← Reference.stage reference.run [] preceding
      let target ← reference.run task produced
      if produced.isEmpty && target.isEmpty then throw (.executionFailed task .noPipelineOutput)
      return produced.flatMap Table.rows ++ target.flatMap Table.rows
  | .recommendFor scene subject params => do
      if (registry.workerOf? .scene scene).isNone then throw (.sceneNotFound scene)
      if Text.allBlank subject then throw (.missingSubject scene)
      let reference : Reference := ⟨registry, answers, ⟨params, some subject⟩, fun _ => none⟩
      let table ← Reference.alone reference.run scene
      return table.rows.map (stamp subject)

def subject? : Operation → Option String
  | .invoke _ _ | .recommend _ _ => none
  | .recommendFor _ subject _ => some subject

end Operation

end Curator
