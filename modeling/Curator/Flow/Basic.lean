import Curator.Table
/-!
Task flows: the tasks of a recommendation service, in seven sections, and the models they use.

Sources, features and transforms produce tables; a service merges tables into candidates, an
experiment chains services and may rank their outcome, a layer splits requests over experiments,
and a scene chains any of these three.
-/

set_option autoImplicit false

namespace Curator

structure Filter where
  column : String
  parameter : String
deriving DecidableEq, Repr, Inhabited

-- A leaf table. Without rows its data comes from outside.
structure Source where
  name : String
  columns : List Column
  rows : Option (List Row)
  filter : Option Filter
deriving Repr, Inhabited

structure Feature where
  name : String
  inputs : List String
  join : Option String
  columns : List Column
deriving DecidableEq, Repr, Inhabited

inductive Formula where
  | copy
  | sum
  | weightedSum
  | concat
deriving DecidableEq, Repr, Inhabited

structure Action where
  column : Column
  formula : Formula
  operands : List String
  weights : List Float
  separator : Option String
deriving DecidableEq, Repr, Inhabited

structure Transform where
  name : String
  features : List String
  transforms : List String
  join : Option String
  actions : List Action
  columns : List Column
deriving DecidableEq, Repr, Inhabited

structure Service where
  name : String
  pulls : List String
  columns : List Column
  dedupBy : Option String
  orderBy : Option String
  descending : Bool
  limit : Option Nat
deriving DecidableEq, Repr, Inhabited

structure Ranking where
  model : String
  features : List String
  scoreColumn : String
  limit : Option Nat
deriving DecidableEq, Repr, Inhabited

structure Experiment where
  name : String
  chain : List String
  ranking : Option Ranking
deriving DecidableEq, Repr, Inhabited

structure Arm where
  name : String
  ratio : Float
deriving DecidableEq, Repr, Inhabited

structure Layer where
  name : String
  -- The layer's name takes part in the split, so that layers split independently.
  salted : Bool
  arms : List Arm
deriving DecidableEq, Repr, Inhabited

structure Scene where
  name : String
  chain : List String
  columns : List Column
  limit : Option Nat
deriving DecidableEq, Repr, Inhabited

structure Model where
  name : String
  address : String
  timeout : Option Nat
deriving DecidableEq, Repr, Inhabited

structure Flow where
  sources : List Source
  features : List Feature
  transforms : List Transform
  services : List Service
  experiments : List Experiment
  layers : List Layer
  scenes : List Scene
  models : List Model
deriving Repr, Inhabited

inductive Kind where
  | dataService
  | service
  | experiment
  | layer
  | scene
deriving DecidableEq, Repr, Inhabited

def Kind.name : Kind → String
  | dataService => "DataService"
  | service => "Service"
  | experiment => "Experiment"
  | layer => "Layer"
  | scene => "Scene"

def Kind.all : List Kind := [.dataService, .service, .experiment, .layer, .scene]

def Kind.ofName? (name : String) : Option Kind := Kind.all.find? (·.name = name)

inductive Task where
  | source (definition : Source)
  | feature (definition : Feature)
  | transform (definition : Transform)
  | service (definition : Service)
  | experiment (definition : Experiment)
  | layer (definition : Layer)
  | scene (definition : Scene)
deriving Repr, Inhabited

namespace Task

def name : Task → String
  | source definition => definition.name
  | feature definition => definition.name
  | transform definition => definition.name
  | service definition => definition.name
  | experiment definition => definition.name
  | layer definition => definition.name
  | scene definition => definition.name

def kind : Task → Kind
  | source _ | feature _ | transform _ => .dataService
  | service _ => .service
  | experiment _ => .experiment
  | layer _ => .layer
  | scene _ => .scene

def columns : Task → List Column
  | source definition => definition.columns
  | feature definition => definition.columns
  | transform definition => definition.columns
  | service definition => definition.columns
  | scene definition => definition.columns
  | experiment _ | layer _ => []

def dependencies : Task → List String
  | source _ => []
  | feature definition => definition.inputs
  | transform definition => definition.features ++ definition.transforms
  | service definition => definition.pulls
  | experiment definition => definition.chain
  | layer definition => definition.arms.map Arm.name
  | scene definition => definition.chain

def isSource : Task → Bool
  | source _ => true
  | _ => false

end Task

namespace Flow

def empty : Flow := ⟨[], [], [], [], [], [], [], []⟩

def tasks (flow : Flow) : List Task :=
  flow.sources.map .source ++ flow.features.map .feature ++ flow.transforms.map .transform
    ++ flow.services.map .service ++ flow.experiments.map .experiment ++ flow.layers.map .layer
    ++ flow.scenes.map .scene

end Flow

end Curator
