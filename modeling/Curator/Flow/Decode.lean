import Curator.Flow.Basic
import Curator.Yaml.Value
/-!
Reading a task flow from a document. The shape of each part names the members that it may have.
Unknown members are ignored and missing sections are empty; whatever else does not fit makes the
whole document unreadable.
-/

set_option autoImplicit false

namespace Curator

open Document

variable {α : Type} [Document α]

def ColumnType.decode? (tree : α) : Option ColumnType :=
  (text? tree).bind fun text => (ColumnType.parse? text).toOption

def Column.shape : Shape := .record [("name", .whole), ("type", .whole)]

def Column.decode? (tree : α) : Option Column := do
  let members ← members? shape.names tree
  return {
    name := ← required? text? "name" members
    type := ← required? ColumnType.decode? "type" members }

def Filter.shape : Shape := .record [("column", .whole), ("param", .whole)]

def Filter.decode? (tree : α) : Option Filter := do
  let members ← members? shape.names tree
  return {
    column := ← required? text? "column" members
    parameter := ← required? text? "param" members }

def Source.shape : Shape :=
  .record [("name", .whole), ("columns", .list Column.shape), ("rows", .list .whole),
    ("filter", Filter.shape)]

def Source.decode? (tree : α) : Option Source := do
  let members ← members? shape.names tree
  return {
    name := ← required? text? "name" members
    columns := ← required? (list? Column.decode?) "columns" members
    rows := ← optionalOr? (list? row?) "rows" members
    filter := ← optionalOr? Filter.decode? "filter" members }

def Feature.shape : Shape :=
  .record [("name", .whole), ("from", .whole), ("join", .whole), ("columns", .list Column.shape)]

def Feature.decode? (tree : α) : Option Feature := do
  let members ← members? shape.names tree
  return {
    name := ← required? text? "name" members
    inputs := ← required? (list? text?) "from" members
    join := ← optionalOr? text? "join" members
    columns := ← listOr? Column.decode? "columns" members }

def Formula.ofName? : String → Option Formula
  | "copy" => some .copy
  | "sum" => some .sum
  | "weightedSum" => some .weightedSum
  | "concat" => some .concat
  | _ => none

def Action.shape : Shape :=
  .record [("name", .whole), ("type", .whole), ("func", .whole), ("fields", .whole),
    ("weights", .whole), ("separator", .whole)]

def Action.decode? (tree : α) : Option Action := do
  let members ← members? shape.names tree
  return {
    column := ⟨← required? text? "name" members, ← required? ColumnType.decode? "type" members⟩
    formula := ← required? (fun tree => (choice? tree).bind Formula.ofName?) "func" members
    operands := ← required? (list? text?) "fields" members
    weights := ← listOr? real? "weights" members
    separator := ← optionalOr? text? "separator" members }

def Transform.shape : Shape :=
  .record [("name", .whole), ("feature", .whole), ("algoTransform", .whole), ("join", .whole),
    ("actions", .list Action.shape), ("columns", .list Column.shape)]

def Transform.decode? (tree : α) : Option Transform := do
  let members ← members? shape.names tree
  return {
    name := ← required? text? "name" members
    features := ← listOr? text? "feature" members
    transforms := ← listOr? text? "algoTransform" members
    join := ← optionalOr? text? "join" members
    actions := ← listOr? Action.decode? "actions" members
    columns := ← listOr? Column.decode? "columns" members }

def Service.shape : Shape :=
  .record [("name", .whole), ("tasks", .whole), ("columns", .list Column.shape),
    ("dedupBy", .whole), ("orderBy", .whole), ("desc", .whole), ("limit", .whole)]

def Service.decode? (tree : α) : Option Service := do
  let members ← members? shape.names tree
  return {
    name := ← required? text? "name" members
    pulls := ← listOr? text? "tasks" members
    columns := ← listOr? Column.decode? "columns" members
    dedupBy := ← optionalOr? text? "dedupBy" members
    orderBy := ← optionalOr? text? "orderBy" members
    descending := ← memberOr? true flag? "desc" members
    limit := ← optionalOr? natural? "limit" members }

def Ranking.shape : Shape :=
  .record [("model", .whole), ("features", .whole), ("scoreField", .whole), ("limit", .whole)]

def Ranking.decode? (tree : α) : Option Ranking := do
  let members ← members? shape.names tree
  return {
    model := ← required? text? "model" members
    features := ← required? (list? text?) "features" members
    scoreColumn := ← memberOr? "score" text? "scoreField" members
    limit := ← optionalOr? natural? "limit" members }

def Experiment.shape : Shape :=
  .record [("name", .whole), ("chain", .whole), ("rank", Ranking.shape)]

def Experiment.decode? (tree : α) : Option Experiment := do
  let members ← members? shape.names tree
  return {
    name := ← required? text? "name" members
    chain := ← required? (list? text?) "chain" members
    ranking := ← optionalOr? Ranking.decode? "rank" members }

def Arm.shape : Shape := .record [("name", .whole), ("ratio", .whole)]

def Arm.decode? (tree : α) : Option Arm := do
  let members ← members? shape.names tree
  return {
    name := ← required? text? "name" members
    ratio := ← required? real? "ratio" members }

def Layer.splitByHash? (tree : α) : Option Unit :=
  (choice? tree).bind fun kind => if kind = "hash" then some () else none

def Layer.splitShape : Shape := .record [("kind", .whole), ("saltWithLayer", .whole)]

def Layer.decodeSplit? (tree : α) : Option Bool := do
  let members ← members? splitShape.names tree
  memberOr? () Layer.splitByHash? "kind" members
  memberOr? true flag? "saltWithLayer" members

def Layer.shape : Shape :=
  .record [("name", .whole), ("bucketizer", splitShape), ("experiments", .list Arm.shape)]

def Layer.decode? (tree : α) : Option Layer := do
  let members ← members? shape.names tree
  return {
    name := ← required? text? "name" members
    salted := ← memberOr? true Layer.decodeSplit? "bucketizer" members
    arms := ← required? (list? Arm.decode?) "experiments" members }

def Scene.shape : Shape :=
  .record [("name", .whole), ("chain", .whole), ("columns", .list Column.shape),
    ("limit", .whole)]

def Scene.decode? (tree : α) : Option Scene := do
  let members ← members? shape.names tree
  return {
    name := ← required? text? "name" members
    chain := ← required? (list? text?) "chain" members
    columns := ← listOr? Column.decode? "columns" members
    limit := ← optionalOr? natural? "limit" members }

def Model.shape : Shape := .record [("name", .whole), ("address", .whole), ("timeoutMs", .whole)]

def Model.decode? (tree : α) : Option Model := do
  let members ← members? shape.names tree
  return {
    name := ← required? text? "name" members
    address := ← required? text? "address" members
    timeout := ← optionalOr? natural? "timeoutMs" members }

def Flow.shape : Shape :=
  .record [("sources", .list Source.shape), ("features", .list Feature.shape),
    ("algoTransforms", .list Transform.shape), ("services", .list Service.shape),
    ("experiments", .list Experiment.shape), ("layers", .list Layer.shape),
    ("scenes", .list Scene.shape), ("models", .list Model.shape)]

def Flow.decode? (tree : α) : Option Flow := do
  let members ← members? shape.names tree
  return {
    sources := ← listOr? Source.decode? "sources" members
    features := ← listOr? Feature.decode? "features" members
    transforms := ← listOr? Transform.decode? "algoTransforms" members
    services := ← listOr? Service.decode? "services" members
    experiments := ← listOr? Experiment.decode? "experiments" members
    layers := ← listOr? Layer.decode? "layers" members
    scenes := ← listOr? Scene.decode? "scenes" members
    models := ← listOr? Model.decode? "models" members }

def Flow.parse? (text : String) : Option Flow := (Yaml.Tree.parse? shape text).bind decode?

end Curator
