import Curator.Flow.Basic
/-!
Writing a task flow as a JSON document with every member spelled out: what is absent is `null`,
and defaults are filled in.
-/

set_option autoImplicit false

namespace Curator

namespace Json

def ofOption {β : Type} (encode : β → Json) : Option β → Json
  | some value => encode value
  | none => .null

def ofList {β : Type} (encode : β → Json) (values : List β) : Json := .array (values.map encode)

end Json

def ColumnType.encode (type : ColumnType) : Json := .string type.name

def Column.encode (column : Column) : Json :=
  .object [("name", .string column.name), ("type", column.type.encode)]

def Filter.encode (filter : Filter) : Json :=
  .object [("column", .string filter.column), ("param", .string filter.parameter)]

def Source.encode (source : Source) : Json :=
  .object [
    ("name", .string source.name),
    ("columns", .ofList Column.encode source.columns),
    ("rows", .ofOption (.ofList .object) source.rows),
    ("filter", .ofOption Filter.encode source.filter)]

def Feature.encode (feature : Feature) : Json :=
  .object [
    ("name", .string feature.name),
    ("from", .ofList .string feature.inputs),
    ("join", .ofOption .string feature.join),
    ("columns", .ofList Column.encode feature.columns)]

def Formula.name : Formula → String
  | copy => "copy"
  | sum => "sum"
  | weightedSum => "weightedSum"
  | concat => "concat"

def Action.encode (action : Action) : Json :=
  .object [
    ("name", .string action.column.name),
    ("type", action.column.type.encode),
    ("func", .string action.formula.name),
    ("fields", .ofList .string action.operands),
    ("weights", .ofList .ofFloat action.weights),
    ("separator", .ofOption .string action.separator)]

def Transform.encode (transform : Transform) : Json :=
  .object [
    ("name", .string transform.name),
    ("feature", .ofList .string transform.features),
    ("algoTransform", .ofList .string transform.transforms),
    ("join", .ofOption .string transform.join),
    ("actions", .ofList Action.encode transform.actions),
    ("columns", .ofList Column.encode transform.columns)]

def Service.encode (service : Service) : Json :=
  .object [
    ("name", .string service.name),
    ("tasks", .ofList .string service.pulls),
    ("columns", .ofList Column.encode service.columns),
    ("dedupBy", .ofOption .string service.dedupBy),
    ("orderBy", .ofOption .string service.orderBy),
    ("desc", .bool service.descending),
    ("limit", .ofOption .ofNat service.limit)]

def Ranking.encode (ranking : Ranking) : Json :=
  .object [
    ("model", .string ranking.model),
    ("features", .ofList .string ranking.features),
    ("scoreField", .string ranking.scoreColumn),
    ("limit", .ofOption .ofNat ranking.limit)]

def Experiment.encode (experiment : Experiment) : Json :=
  .object [
    ("name", .string experiment.name),
    ("chain", .ofList .string experiment.chain),
    ("rank", .ofOption Ranking.encode experiment.ranking)]

def Arm.encode (arm : Arm) : Json :=
  .object [("name", .string arm.name), ("ratio", .ofFloat arm.ratio)]

def Layer.encode (layer : Layer) : Json :=
  .object [
    ("name", .string layer.name),
    ("bucketizer", .object [("kind", .string "hash"), ("saltWithLayer", .bool layer.salted)]),
    ("experiments", .ofList Arm.encode layer.arms)]

def Scene.encode (scene : Scene) : Json :=
  .object [
    ("name", .string scene.name),
    ("chain", .ofList .string scene.chain),
    ("columns", .ofList Column.encode scene.columns),
    ("limit", .ofOption .ofNat scene.limit)]

def Model.encode (model : Model) : Json :=
  .object [
    ("name", .string model.name),
    ("address", .string model.address),
    ("timeoutMs", .ofOption .ofNat model.timeout)]

def Flow.encode (flow : Flow) : Json :=
  .object [
    ("sources", .ofList Source.encode flow.sources),
    ("features", .ofList Feature.encode flow.features),
    ("algoTransforms", .ofList Transform.encode flow.transforms),
    ("services", .ofList Service.encode flow.services),
    ("experiments", .ofList Experiment.encode flow.experiments),
    ("layers", .ofList Layer.encode flow.layers),
    ("scenes", .ofList Scene.encode flow.scenes),
    ("models", .ofList Model.encode flow.models)]

end Curator
