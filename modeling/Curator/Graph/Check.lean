import Curator.Graph.Resolve
/-!
What every definition of a flow has to satisfy: on its own, and in the tasks it refers to.
-/

set_option autoImplicit false

namespace Curator

namespace Action

def fault? (action : Action) : Option DefinitionFault :=
  let name := action.column.name
  if action.operands.isEmpty then some (.noOperands name)
  else match action.formula with
    | .copy => if action.operands.length ≠ 1 then some (.copyArity name) else none
    | .sum =>
        if !action.column.type.isNumeric then some (.notNumeric name action.column.type) else none
    | .weightedSum =>
        if !action.column.type.isNumeric then some (.notNumeric name action.column.type)
        else if action.weights.length ≠ action.operands.length then
          some (.weightCount name action.weights.length action.operands.length)
        else none
    | .concat => if action.column.type ≠ .str then some (.concatType name) else none

end Action

namespace Source

def filterFault? (source : Source) : Option DefinitionFault :=
  source.filter.bind fun filter =>
    if source.columns.any (·.name = filter.column) then none
    else some (.undeclaredFilter filter.column)

def rowFault? (source : Source) : Option DefinitionFault :=
  source.rows.bind fun rows =>
    match Table.ofRows source.name source.columns rows with
    | .ok _ => none
    | .error error => some (.illTypedRows error)

def fault? (source : Source) : Option DefinitionFault :=
  if source.columns.isEmpty then some .noColumns
  else source.filterFault?.orElse fun _ => source.rowFault?

end Source

def Arm.hasLegalRatio (arm : Arm) : Bool := arm.ratio.isFinite && !decide (arm.ratio < 0)

namespace Task

def fault? : Task → Option DefinitionFault
  | source definition => definition.fault?
  | feature definition => if definition.inputs.isEmpty then some .noFeatureInput else none
  | transform definition =>
      if definition.features.isEmpty && definition.transforms.isEmpty then some .noTransformInput
      else definition.actions.findSome? Action.fault?
  | service _ => none
  | experiment definition =>
      if definition.chain.isEmpty then some .noServices
      else definition.ranking.bind fun ranking =>
        if ranking.features.isEmpty then some .noRankFeatures else none
  | layer definition =>
      if definition.arms.isEmpty then some .noArms
      else (definition.arms.find? (!·.hasLegalRatio)).map fun arm => .badRatio arm.name arm.ratio
  | scene definition => if definition.chain.isEmpty then some .emptyScene else none

def references : Task → List (Role × String)
  | source _ => []
  | feature definition => definition.inputs.map (.dataService, ·)
  | transform definition =>
      definition.features.map (.sourceOrFeature, ·) ++ definition.transforms.map (.transform, ·)
  | service definition => definition.pulls.map (.dataService, ·)
  | experiment definition => definition.chain.map (.service, ·)
  | layer definition => definition.arms.map fun arm => (.experiment, arm.name)
  | scene definition => definition.chain.map (.stage, ·)

theorem map_snd_references (task : Task) : task.references.map Prod.snd = task.dependencies := by
  cases task <;> simp [references, dependencies, Function.comp_def]

def referenceFault? (tasks : List Task) (owner : String) (reference : Role × String) :
    Option FlowError :=
  match find? tasks reference.2 with
  | none => some (.unknownReference owner reference.2)
  | some target =>
      if reference.1.admits target then none
      else some (.invalidReference owner reference.2 reference.1)

def error? (tasks : List Task) (task : Task) : Option FlowError :=
  match task.fault? with
  | some fault => some (.invalidTask task.name fault)
  | none => task.references.findSome? (referenceFault? tasks task.name)

end Task

end Curator
