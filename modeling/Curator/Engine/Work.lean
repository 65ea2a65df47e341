import Curator.Derive
import Curator.Engine.Plan
import Curator.Ranking
import Curator.Request
import Curator.Split
import Curator.Table.Distinct
/-!
The work of each kind of task, as a plan. Sources ask for rows; features and transforms pull tables
and merge them; services merge what they are given with what they pull; experiments, layers and
scenes run other tasks.
-/

set_option autoImplicit false

namespace Curator

namespace Source

def query? (source : Source) (request : Request) : Option (Option (String × String)) :=
  match source.filter with
  | none => some none
  | some filter => (request.text? filter.parameter).map fun value => some (filter.column, value)

def typed (source : Source) (rows : List Row) : Outcome :=
  match Table.ofRows source.name source.columns rows with
  | .ok table => .ok [table]
  | .error error => .error (.schema source.name error)

def select (filter : Option (String × String)) (rows : List Row) : List Row :=
  match filter with
  | none => rows
  | some (column, value) => rows.filter fun row => Table.keyIn column row == some value

-- Inline rows are at hand; without them a backend is asked. A filter without a value admits no
-- rows, and nobody is asked.
def plan (source : Source) (inline : Option (List Row)) (request : Request) : Plan :=
  match source.query? request with
  | none => .succeed [Table.empty source.name source.columns]
  | some filter => match inline with
      | some rows => .done (source.typed (select filter rows))
      | none => .ask (.rows source.name (source.columns.map Column.name) filter) fun
          | .ok rows => .done (source.typed rows)
          | .error causes => .fail (.source source.name causes)

end Source

namespace Feature

def assemble (feature : Feature) (tables : List Table) : Except Failure Table := do
  let merged ← (Table.merge feature.name feature.join tables).mapError (.schema feature.name)
  (Table.restrict feature.name feature.columns merged).mapError (.schema feature.name)

end Feature

namespace Transform

def assemble (transform : Transform) (tables : List Table) : Except Failure Table := do
  let merged ← (Table.merge transform.name transform.join tables).mapError (.schema transform.name)
  let derived ← Table.derive transform.name transform.actions merged
  (Table.restrict transform.name transform.columns derived).mapError (.schema transform.name)

end Transform

namespace Service

def arrange (service : Service) (rows : List Row) : List Row :=
  let distinct := match service.dedupBy with
    | some column => Table.distinctBy column rows
    | none => rows
  let ordered := match service.orderBy with
    | some column =>
        Row.orderBy column (if service.descending then .descending else .ascending) distinct
    | none => distinct
  Ranking.cut service.limit ordered

def assemble (service : Service) (tables : List Table) : Except Failure Table := do
  let merged ← (Table.stack service.name tables).mapError (.schema service.name)
  let arranged ← (Table.ofRows service.name merged.columns (service.arrange merged.rows)).mapError
    (.schema service.name)
  (Table.restrict service.name service.columns arranged).mapError (.schema service.name)

end Service

namespace Scene

def assemble (scene : Scene) (tables : List Table) : Except Failure Table := do
  let merged ← (Table.stack scene.name tables).mapError (.schema scene.name)
  let shown ← (Table.restrict scene.name scene.columns merged).mapError (.schema scene.name)
  return match scene.limit with
    | some limit => shown.take limit
    | none => shown

end Scene

def Plan.ofTable : Except Failure Table → Plan
  | .ok table => .succeed [table]
  | .error failure => .fail failure

namespace Experiment

def rankPlan (ranking : Ranking) (name : String) (request : Request) (candidates : Table) : Plan :=
  if candidates.isEmpty then .succeed [candidates]
  else .ask (.scores ranking.model request.subject ranking.features candidates.rows) fun
    | .ok scores => .ofTable (ranking.rank name candidates scores)
    | .error causes => .fail (.scoring ranking.model (.backend causes))

def plan (experiment : Experiment) (request : Request) (input : List Table) : Plan :=
  .chain experiment.chain input fun outputs =>
    match experiment.ranking with
    | none => .succeed outputs
    | some ranking => match Table.stack experiment.name outputs with
        | .error error => .fail (.schema experiment.name error)
        | .ok candidates => rankPlan ranking experiment.name request candidates

end Experiment

namespace Layer

def plan (layer : Layer) (request : Request) (input : List Table) : Plan :=
  match layer.assign request.splitKey with
  | .error error => .fail (.invalidSplit error)
  | .ok experiment => .stage [experiment] input .succeed

end Layer

def Task.plan (request : Request) (input : List Table) : Task → Plan
  | .source definition => definition.plan none request
  | .feature definition => .pull definition.inputs fun tables => .ofTable (definition.assemble tables)
  | .transform definition =>
      .pull (definition.features ++ definition.transforms) fun tables =>
        .ofTable (definition.assemble tables)
  | .service definition =>
      .pull definition.pulls fun tables => .ofTable (definition.assemble (input ++ tables))
  | .experiment definition => definition.plan request input
  | .layer definition => definition.plan request input
  | .scene definition =>
      .chain definition.chain input fun outputs => .ofTable (definition.assemble outputs)

end Curator
