import Curator.Flow.Basic
/-!
Why a task flow is refused.
-/

set_option autoImplicit false

namespace Curator

inductive Role where
  | dataService
  | sourceOrFeature
  | transform
  | service
  | experiment
  | stage
deriving DecidableEq, Repr

namespace Role

def description : Role → String
  | dataService => "a data service"
  | sourceOrFeature => "a source or feature"
  | transform => "an algo transform"
  | service => "a service"
  | experiment => "an experiment"
  | stage => "a layer, experiment or service"

def admits : Role → Task → Bool
  | dataService, .source _ | dataService, .feature _ | dataService, .transform _ => true
  | sourceOrFeature, .source _ | sourceOrFeature, .feature _ => true
  | transform, .transform _ => true
  | service, .service _ => true
  | experiment, .experiment _ => true
  | stage, .layer _ | stage, .experiment _ | stage, .service _ => true
  | _, _ => false

end Role

inductive DefinitionFault where
  | noColumns
  | undeclaredFilter (column : String)
  | illTypedRows (error : SchemaError)
  | noFeatureInput
  | noTransformInput
  | noOperands (action : String)
  | copyArity (action : String)
  | notNumeric (action : String) (type : ColumnType)
  | weightCount (action : String) (weights operands : Nat)
  | concatType (action : String)
  | noServices
  | noRankFeatures
  | noArms
  | badRatio (experiment : String) (ratio : Float)
  | emptyScene
deriving DecidableEq, Repr

def DefinitionFault.message : DefinitionFault → String
  | .noColumns => "a source must declare its columns"
  | .undeclaredFilter column => s!"filter column {column} is not a declared column"
  | .illTypedRows error => error.message
  | .noFeatureInput => "a feature needs at least one input"
  | .noTransformInput => "an algo transform needs at least one input"
  | .noOperands action => s!"action {action} has no input fields"
  | .copyArity action => s!"copy action {action} takes one field"
  | .notNumeric action type => s!"action {action} must produce a numeric type, not {type.name}"
  | .weightCount action weights operands =>
      s!"action {action} has {weights} weights for {operands} fields"
  | .concatType action => s!"concat action {action} must produce str"
  | .noServices => "an experiment needs a service chain"
  | .noRankFeatures => "rank needs at least one feature"
  | .noArms => "a layer needs at least one experiment"
  | .badRatio experiment ratio =>
      s!"experiment {experiment} has invalid ratio {Decimal.write Decimal.ratioLayout ratio}"
  | .emptyScene => "a scene needs a chain"

inductive FlowError where
  | duplicateTask (name : String)
  | duplicateModel (name : String)
  | unknownReference (task reference : String)
  | invalidReference (task reference : String) (expected : Role)
  | unknownTask (name : String)
  | cycle (path : List String)
  | invalidTask (task : String) (fault : DefinitionFault)
deriving DecidableEq, Repr

def FlowError.message : FlowError → String
  | .duplicateTask name => s!"Duplicate task name: {name}"
  | .duplicateModel name => s!"Duplicate model name: {name}"
  | .unknownReference task reference => s!"Task {task} references unknown task {reference}"
  | .invalidReference task reference expected =>
      s!"Task {task} cannot use {reference}: expected {expected.description}"
  | .unknownTask name => s!"Unknown task: {name}"
  | .cycle path => "Dependency cycle detected: " ++ String.intercalate " -> " path
  | .invalidTask task fault => s!"Invalid task {task}: {fault.message}"

end Curator
